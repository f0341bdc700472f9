import ApiSections.Proofs.Comment.Code

/-!
A tag among the lines of a comment. Behind whatever margin, on the line of the opening delimiter or
below it, a tag outside of fenced code is read from its own line and the lines that continue it, and
nothing else in the comment depends on it.
-/

namespace ApiSections.Comment

open Text

section Rows

def contentRow (row : List Char) : List Char := trimRight (dropMargin row)

/-- What is read from the lines between the delimiters. The first of them has no margin. -/
def contentRows : List (List Char) → List (List Char)
  | [] => []
  | first :: others => trimRight (dropSpace first) :: others.map contentRow

theorem contentRows_append {above : List (List Char)} (lower : above ≠ [])
    (below : List (List Char)) :
    contentRows (above ++ below) = contentRows above ++ below.map contentRow := by
  cases above with
  | nil => exact absurd rfl lower
  | cons first others => simp [contentRows]

theorem contentLines_delimited {rows : List (List Char)} (free : ∀ row ∈ rows, '\n' ∉ row)
    (left : rows ≠ []) :
    contentLines ("/**".toList ++ joinWith '\n' rows ++ "*/".toList) = contentRows rows := by
  rw [contentLines, body_delimited, splitAt_joinWith free left]
  cases rows <;> rfl

theorem dropMargin_star {line tail : List Char} (start : trimLeft line = '*' :: tail) :
    dropMargin line = dropSpace tail := by
  rw [dropMargin, start]
  cases tail with
  | nil => rfl
  | cons c tail =>
    by_cases space : c = ' '
    · rw [space]
      rfl
    · simp [dropSpace, space]

theorem dropSpace_append_at (blanks rest : List Char) :
    dropSpace (blanks ++ '@' :: rest) = dropSpace blanks ++ '@' :: rest := by
  cases blanks with
  | nil => rfl
  | cons c blanks =>
    by_cases space : c = ' '
    · rw [space]
      rfl
    · simp [dropSpace, space]

end Rows

section Places

/-- What may stand in front of a tag on its line: blanks, and a star among them on every line but
that of the opening delimiter. -/
inductive Margin (above : List (List Char)) : List Char → Prop
  | bare {indent : List Char} (blank : ∀ c ∈ indent, isBlank c = true) : Margin above indent
  | starred {indent gap : List Char} (lower : above ≠ []) (blank : ∀ c ∈ indent, isBlank c = true)
      (gap_blank : ∀ c ∈ gap, isBlank c = true) : Margin above (indent ++ '*' :: gap)

/-- Where a tag stands in a comment: behind a margin, between the lines above and below, and outside
of fenced code. -/
structure Place where
  above : List (List Char)
  margin : List Char
  below : List (List Char)
  single : ∀ row ∈ above ++ margin :: below, '\n' ∉ row
  clear : Margin above margin
  outside : oddFences (contentRows above) = false

namespace Place

def rows (place : Place) (line : List Char) : List (List Char) :=
  place.above ++ (place.margin ++ line) :: place.below

def comment (place : Place) (line : List Char) : String :=
  String.ofList ("/**".toList ++ joinWith '\n' (place.rows line) ++ "*/".toList)

theorem toList_comment (place : Place) (line : List Char) : (place.comment line).toList =
    "/**".toList ++ joinWith '\n' (place.rows line) ++ "*/".toList := String.toList_ofList

/-- The lines below a tag that continue its text. -/
def continuation (place : Place) : List (List Char) :=
  (sections false (place.below.map contentRow)).1

/-- The doc comment with `tag` in the place: the summary and the tags above, the tag, and the tags
below. -/
def doc (place : Place) (tag : Tag) : DocComment :=
  let (leading, earlier) := sections false (contentRows place.above)
  let later := (sections false (place.below.map contentRow)).2
  { summary := String.ofList (trim (joinWith '\n' leading))
    tags := earlier.map (fun (name, lines) => tagOf name lines) ++
      tag :: later.map fun (name, lines) => tagOf name lines }

end Place

/-- Of the margin in front of a tag only blanks are left. -/
theorem Margin.exists_gap {above : List (List Char)} {margin : List Char}
    (clear : Margin above margin) (rest : List Char) (below : List (List Char)) :
    ∃ gap, (∀ c ∈ gap, isBlank c = true) ∧
      contentRows (above ++ (margin ++ '@' :: rest) :: below) =
        contentRows above ++ trimRight (gap ++ '@' :: rest) :: below.map contentRow := by
  cases clear with
  | bare blank =>
    by_cases first : above = []
    · refine ⟨dropSpace margin, dropSpace_blank blank, ?_⟩
      rw [first, List.nil_append, contentRows.eq_2, dropSpace_append_at]
      rfl
    · have start : trimLeft (margin ++ '@' :: rest) = '@' :: rest := by
        rw [trimLeft_append blank]
        rfl
      have kept : dropMargin (margin ++ '@' :: rest) = margin ++ '@' :: rest := by
        rw [dropMargin, start]
        rfl
      refine ⟨margin, blank, ?_⟩
      rw [contentRows_append first, List.map_cons, contentRow, kept]
  | @starred indent gap lower blank gap_blank =>
    have start : trimLeft (indent ++ '*' :: gap ++ '@' :: rest) = '*' :: (gap ++ '@' :: rest) := by
      rw [List.append_assoc, trimLeft_append blank]
      rfl
    refine ⟨dropSpace gap, dropSpace_blank gap_blank, ?_⟩
    rw [contentRows_append lower, List.map_cons, contentRow, dropMargin_star start,
      dropSpace_append_at]

theorem trimRight_named {name : List Char} (named : isTagName name = true) (front rest : List Char) :
    trimRight (front ++ (name ++ rest)) = front ++ (name ++ trimRight rest) := by
  obtain ⟨start, last, rfl⟩ : ∃ start last, name = start ++ [last] := by
    rcases List.eq_nil_or_concat name with rfl | ⟨start, last, same⟩
    · cases named
    · exact ⟨start, last, by simpa using same⟩
  have ink : isBlank last = false := isTagName.ink named last (by simp)
  simpa using trimRight_append_ink ink (front ++ start) rest

theorem Place.read_comment (place : Place) {name rest : List Char} (named : isTagName name = true)
    (ends : ∀ c ∈ rest.head?, isTagChar c = false) (single : '\n' ∉ rest) :
    read (place.comment ('@' :: (name ++ rest))) =
      place.doc (tagOf name (trimRight rest :: place.continuation)) := by
  have free : ∀ row ∈ place.rows ('@' :: (name ++ rest)), '\n' ∉ row := by
    have around := place.single
    have name_free : '\n' ∉ name := fun feed => ink_ne_newline (isTagName.ink named _ feed) rfl
    simp only [rows, List.mem_append, List.mem_cons, or_imp, forall_and] at around ⊢
    refine ⟨around.1, ?_, around.2.2⟩
    simp [around.2.1, name_free, single]
  obtain ⟨gap, blank, content⟩ := place.clear.exists_gap (name ++ rest) place.below
  have line : trimRight (gap ++ '@' :: (name ++ rest)) = gap ++ '@' :: (name ++ trimRight rest) := by
    rw [List.append_cons, trimRight_named named, ← List.append_cons]
  rw [line] at content
  have tag := tagLine?_named blank named fun c first => ends c (head?_of_trimRight first)
  have cut := sections_append_tag false tag (by rw [Bool.false_xor, place.outside])
    (place.below.map contentRow)
  have lines := contentLines_delimited free (by simp [rows])
  rw [rows, content] at lines
  simp only [read, toList_comment, rows, lines, cut, doc, continuation, List.map_append,
    List.map_cons]

end Places

end ApiSections.Comment
