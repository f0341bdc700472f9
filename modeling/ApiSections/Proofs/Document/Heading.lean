import ApiSections.Proofs.Document.Reading

/-!
The line above a marker: when it is a heading, its hash marks set the level of the region and its
blanks are reduced to one space. Both survive the reduction.
-/

namespace ApiSections.Document

open Text

/-- A heading without a text: one to six hash marks and nothing but blanks behind them. -/
def isEmptyHeading (line : List Char) : Bool :=
  let depth := (line.takeWhile isHash).length
  1 ≤ depth && depth ≤ 6 && (line.dropWhile isHash).all isBlank

theorem isHash_of_isBlank {c : Char} (blank : isBlank c = true) : isHash c = false := by
  cases same : isHash c with
  | false => rfl
  | true =>
    have hash : c = '#' := by simpa [isHash] using same
    subst hash
    exact absurd blank (by decide)

theorem takeWhile_hashes (depth : Nat) (rest : List Char)
    (other : ∀ c ∈ rest.head?, isHash c = false) :
    (List.replicate depth '#' ++ rest).takeWhile isHash = List.replicate depth '#' ∧
      (List.replicate depth '#' ++ rest).dropWhile isHash = rest := by
  have hashes : ∀ c ∈ List.replicate depth '#', isHash c = true := by
    intro c member
    rw [List.eq_of_mem_replicate member]
    rfl
  rw [List.takeWhile_append_of_pos hashes, List.dropWhile_append_of_pos hashes]
  cases rest with
  | nil => simp
  | cons c rest =>
    have := other c (by simp)
    simp [this]

/-- A line that starts with one to six hash marks, `depth` of them, and then a blank. -/
structure IsHeading (depth : Nat) (line : List Char) : Prop where
  positive : 1 ≤ depth
  bound : depth ≤ 6
  marks : ∃ c rest, isBlank c = true ∧ line = List.replicate depth '#' ++ c :: rest

theorem headingLevel?_eq_some_iff {line : List Char} {depth : Nat} :
    headingLevel? line = some depth ↔ IsHeading depth line := by
  constructor
  · intro level
    have whole : line.takeWhile isHash ++ line.dropWhile isHash = line :=
      List.takeWhile_append_dropWhile
    simp only [headingLevel?] at level
    split at level
    · rename_i c rest behind
      split at level
      · rename_i guard
        simp only [Bool.and_eq_true, decide_eq_true_eq] at guard
        cases level
        refine ⟨guard.1.1, guard.1.2, c, rest, guard.2, ?_⟩
        rw [← takeWhile_isHash, ← behind, whole]
      · cases level
    · cases level
  · rintro ⟨positive, bound, c, rest, blank, rfl⟩
    have cut := takeWhile_hashes depth (c :: rest) (by simpa using isHash_of_isBlank blank)
    simp only [headingLevel?, cut.1, cut.2, List.length_replicate, blank]
    simp [positive, bound]

/-- What a line says: the text of a heading, or else the line as it is. -/
def title (line : List Char) : List Char :=
  match headingLevel? line with
  | some _ => (line.dropWhile isHash).dropWhile isBlank
  | none => line

/-- A line with one space behind the hash marks of a heading. -/
def normalized (line : List Char) : List Char :=
  match headingLevel? line with
  | some depth => List.replicate depth '#' ++ ' ' :: title line
  | none => line

theorem title_of_level {line : List Char} {depth : Nat} (level : headingLevel? line = some depth)
    (named : isEmptyHeading line = false) :
    ∃ blanks c text, blanks ≠ [] ∧ (∀ b ∈ blanks, isBlank b = true) ∧ isBlank c = false ∧
      title line = c :: text ∧ line = List.replicate depth '#' ++ blanks ++ c :: text := by
  obtain ⟨positive, bound, b, rest, blank, rfl⟩ := headingLevel?_eq_some_iff.mp level
  have cut := takeWhile_hashes depth (b :: rest) (by simpa using isHash_of_isBlank blank)
  have same : title (List.replicate depth '#' ++ b :: rest) = (b :: rest).dropWhile isBlank := by
    rw [title, level]
    simp only [cut.2]
  have whole : (b :: rest).takeWhile isBlank ++ (b :: rest).dropWhile isBlank = b :: rest :=
    List.takeWhile_append_dropWhile
  cases text : (b :: rest).dropWhile isBlank with
  | nil =>
    have all : (b :: rest).all isBlank = true := by
      rw [text, List.append_nil] at whole
      rw [← whole]
      exact List.all_takeWhile
    simp only [isEmptyHeading, cut.1, cut.2, all, List.length_replicate] at named
    simp [positive, bound] at named
  | cons c text' =>
    have other : isBlank c = false := by
      have := List.head?_dropWhile_not isBlank (b :: rest)
      rw [text] at this
      simpa using this
    refine ⟨(b :: rest).takeWhile isBlank, c, text', by simp [blank], ?_, other, ?_, ?_⟩
    · intro d member
      exact List.all_eq_true.mp List.all_takeWhile d member
    · rw [same, text]
    · rw [List.append_assoc, ← text, whole]

theorem normalized_of_level {line : List Char} {depth : Nat}
    (level : headingLevel? line = some depth) :
    normalized line = List.replicate depth '#' ++ ' ' :: title line := by
  rw [normalized, level]

theorem normalized_of_none {line : List Char} (level : headingLevel? line = none) :
    normalized line = line := by
  rw [normalized, level]

theorem headingLevel?_normalized (line : List Char) :
    headingLevel? (normalized line) = headingLevel? line := by
  cases level : headingLevel? line with
  | none => rw [normalized_of_none level, level]
  | some depth =>
    obtain ⟨positive, bound, _⟩ := headingLevel?_eq_some_iff.mp level
    rw [normalized_of_level level]
    exact headingLevel?_eq_some_iff.mpr ⟨positive, bound, ' ', title line, by decide, rfl⟩

theorem normalized_unmarked {phrase line : List Char} (some_phrase : phrase ≠ [])
    (no_heading : phrase.head? ≠ some '#') (unmarked : ¬ phrase <+: line) :
    ¬ phrase <+: normalized line := by
  cases level : headingLevel? line with
  | none => rwa [normalized_of_none level]
  | some depth =>
    obtain ⟨positive, _⟩ := headingLevel?_eq_some_iff.mp level
    obtain ⟨depth, rfl⟩ : ∃ less, depth = less + 1 := ⟨depth - 1, by omega⟩
    rw [normalized_of_level level]
    intro starts
    cases phrase with
    | nil => exact some_phrase rfl
    | cons c phrase =>
      rw [List.replicate_succ, List.cons_append, List.cons_prefix_cons] at starts
      exact no_heading (by rw [starts.1]; rfl)

section Named

variable {line : List Char} (named : isEmptyHeading line = false)

include named

theorem title_normalized : title (normalized line) = title line := by
  cases level : headingLevel? line with
  | none => rw [normalized_of_none level]
  | some depth =>
    obtain ⟨blanks, c, text, _, _, other, said, _⟩ := title_of_level level named
    have cut := takeWhile_hashes depth (' ' :: title line) (by simp; decide)
    have space : isBlank ' ' = true := by decide
    have dropped : (' ' :: title line).dropWhile isBlank = title line := by
      rw [said]
      simp [space, other]
    rw [title, headingLevel?_normalized, level]
    simp only [normalized_of_level level, cut.2, dropped]

theorem normalized_normalized : normalized (normalized line) = normalized line := by
  cases level : headingLevel? line with
  | none => rw [normalized_of_none level, normalized_of_none level]
  | some depth =>
    have same : headingLevel? (normalized line) = some depth := by
      rw [headingLevel?_normalized, level]
    rw [normalized_of_level same, title_normalized named, normalized_of_level level]

theorem isEmptyHeading_normalized : isEmptyHeading (normalized line) = false := by
  cases level : headingLevel? line with
  | none => rw [normalized_of_none level, named]
  | some depth =>
    obtain ⟨blanks, c, text, _, _, other, said, _⟩ := title_of_level level named
    have cut := takeWhile_hashes depth (' ' :: title line) (by simp; decide)
    have worded : (' ' :: title line).all isBlank = false := by
      rw [said, List.all_cons, List.all_cons, other]
      simp
    simp only [isEmptyHeading, normalized_of_level level, cut.2, worded, Bool.and_false]

theorem isLine_title (full : IsLine line) : IsLine (title line) := by
  cases level : headingLevel? line with
  | none => rwa [title, level]
  | some depth =>
    obtain ⟨blanks, c, text, _, _, _, said, same⟩ := title_of_level level named
    rw [same] at full
    rw [said]
    exact full.of_append (by simp)

theorem isLine_normalized (full : IsLine line) : IsLine (normalized line) := by
  cases level : headingLevel? line with
  | none => rwa [normalized_of_none level]
  | some depth =>
    obtain ⟨body, free, same⟩ := isLine_title named full
    rw [normalized_of_level level, same]
    refine ⟨List.replicate depth '#' ++ ' ' :: body, ?_, by simp⟩
    intro member
    rcases List.mem_append.mp member with member | member
    · exact absurd (List.eq_of_mem_replicate member) (by decide)
    · rcases List.mem_cons.mp member with space | member
      · exact absurd space (by decide)
      · exact free member

theorem length_title_le : (title line).length ≤ line.length := by
  cases level : headingLevel? line with
  | none =>
    have same : title line = line := by rw [title, level]
    exact Nat.le_of_eq (congrArg List.length same)
  | some depth =>
    obtain ⟨blanks, c, text, _, _, _, said, same⟩ := title_of_level level named
    have size := congrArg List.length same
    rw [said]
    simp only [List.length_append] at size
    omega

end Named

/-- The match of a marker below a line. -/
def lineMatch (above marker source : List Char) : Match :=
  { hashes := headingLevel? above
    lead := above.length - (title above).length
    marking := ⟨title above ++ marker, source⟩ }

theorem lineMatch_length {above : List Char} (named : isEmptyHeading above = false)
    (marker source : List Char) :
    (lineMatch above marker source).length = (above ++ marker).length := by
  have shorter := length_title_le named
  simp only [Match.length, lineMatch, List.length_append]
  omega

theorem hashes_of_isLine {line : List Char} (full : IsLine line) :
    ∃ depth c rest, isHash c = false ∧ line = List.replicate depth '#' ++ c :: rest := by
  have whole : line.takeWhile isHash ++ line.dropWhile isHash = line :=
    List.takeWhile_append_dropWhile
  cases behind : line.dropWhile isHash with
  | nil =>
    rw [behind, List.append_nil] at whole
    have feed : '\n' ∈ line.takeWhile isHash := by
      rw [whole]
      exact List.mem_of_getLast? full.getLast?
    exact absurd (List.all_eq_true.mp List.all_takeWhile _ feed) (by decide)
  | cons c rest =>
    have other := List.head?_dropWhile_not isHash line
    rw [behind] at other
    refine ⟨(line.takeWhile isHash).length, c, rest, by simpa using other, ?_⟩
    rw [← takeWhile_isHash, ← behind, whole]

theorem headingLevel?_hashes {c : Char} (other : isHash c = false) (depth : Nat)
    (rest : List Char) :
    headingLevel? (List.replicate depth '#' ++ c :: rest) =
      if 1 ≤ depth ∧ depth ≤ 6 ∧ isBlank c = true then some depth else none := by
  have cut := takeWhile_hashes depth (c :: rest) (by simpa using other)
  simp only [headingLevel?, cut.1, cut.2, List.length_replicate, Bool.and_eq_true,
    decide_eq_true_eq, and_assoc]

/-- The blanks of a heading with a text end on its own line, so a marker below it is reached. -/
theorem matchAt?_of_heading {above : List Char} (full : IsLine above)
    (named : isEmptyHeading above = false) {depth : Nat} (level : headingLevel? above = some depth)
    (phrase below : List Char) :
    matchAt? phrase true (above ++ below) =
      (reading? phrase below).map fun (source, taken) =>
        lineMatch above (below.take taken) source := by
  obtain ⟨positive, bound, _⟩ := headingLevel?_eq_some_iff.mp level
  obtain ⟨blanks, c, text, some_blank, blank, solid, said, rfl⟩ := title_of_level level named
  have head : ∀ b ∈ (blanks ++ c :: text ++ below).head?, isHash b = false := by
    cases blanks with
    | nil => exact absurd rfl some_blank
    | cons b blanks => simpa using isHash_of_isBlank (blank b List.mem_cons_self)
  have ahead := takeWhile_hashes depth (blanks ++ c :: text ++ below) head
  have run : (blanks ++ c :: text ++ below).takeWhile isBlank = blanks := by
    rw [List.append_assoc, List.takeWhile_append_of_pos blank, List.cons_append,
      List.takeWhile_cons_of_neg (by simp [solid]), List.append_nil]
  have plain := marking?_of_isLine full phrase below
  rw [List.append_assoc] at full
  have tail : IsLine (blanks ++ c :: text) := full.of_append (by simp)
  have short : blanks.length < (blanks ++ c :: text).length := by simp
  have some_length : blanks.length ≠ 0 := fun none => some_blank (List.length_eq_zero_iff.mp none)
  have regroup : List.replicate depth '#' ++ blanks ++ c :: text ++ below =
      List.replicate depth '#' ++ (blanks ++ c :: text ++ below) := by simp
  rw [regroup] at plain ⊢
  simp only [matchAt?, ahead.1, ahead.2, List.length_replicate, Bool.true_and, Bool.and_eq_true,
    decide_eq_true_eq, plain, run]
  rw [if_pos ⟨positive, bound⟩, markingBehind?_of_isLine tail _ _ _ short, if_neg some_length,
    List.drop_left]
  cases reading? phrase below with
  | none => rfl
  | some pair =>
    have lead : depth + blanks.length =
        (List.replicate depth '#' ++ blanks ++ c :: text).length - (c :: text).length := by
      simp only [List.length_append, List.length_replicate]
      omega
    simp only [Option.map_some, lineMatch, level, said, lead]

theorem matchAt?_of_unheaded {above : List Char} (full : IsLine above)
    (level : headingLevel? above = none) (phrase below : List Char) :
    matchAt? phrase true (above ++ below) =
      (reading? phrase below).map fun (source, taken) =>
        lineMatch above (below.take taken) source := by
  have said : title above = above := by rw [title, level]
  have plain := marking?_of_isLine full phrase below
  obtain ⟨depth, c, rest, other, rfl⟩ := hashes_of_isLine full
  have no_level := level
  rw [headingLevel?_hashes other, ite_eq_right_iff] at no_level
  have ahead := takeWhile_hashes depth (c :: rest ++ below) (by simpa using other)
  have unheaded : (if 1 ≤ depth ∧ depth ≤ 6 then
      markingBehind? phrase (c :: rest ++ below) ((c :: rest ++ below).takeWhile isBlank).length
      else none) = none := by
    split
    · rename_i inside
      have solid : isBlank c = false := by
        cases blank : isBlank c with
        | false => rfl
        | true => cases no_level ⟨inside.1, inside.2, blank⟩
      simp only [List.cons_append, List.takeWhile_cons, solid]
      rfl
    · rfl
  rw [List.append_assoc] at plain ⊢
  simp only [matchAt?, ahead.1, ahead.2, List.length_replicate, Bool.true_and, Bool.and_eq_true,
    decide_eq_true_eq, plain, unheaded]
  cases reading? phrase below with
  | none => rfl
  | some pair => simp only [Option.map_some, lineMatch, level, said, Nat.sub_self]

/-- Below a line that is no empty heading, a marker is found exactly if one can be read there. -/
theorem matchAt?_of_named {above : List Char} (full : IsLine above)
    (named : isEmptyHeading above = false) (phrase below : List Char) :
    matchAt? phrase true (above ++ below) =
      (reading? phrase below).map fun (source, taken) =>
        lineMatch above (below.take taken) source := by
  cases level : headingLevel? above with
  | some depth => exact matchAt?_of_heading full named level phrase below
  | none => exact matchAt?_of_unheaded full level phrase below

end ApiSections.Document
