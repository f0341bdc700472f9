import ApiSections.Text.Lines

namespace ApiSections.Text

/-- A line with its line feed. -/
def IsLine (line : List Char) : Prop := ∃ body, '\n' ∉ body ∧ line = body ++ ['\n']

/-- A text that is empty or ends with a line feed. -/
def EndsLine (text : List Char) : Prop := text = [] ∨ text.getLast? = some '\n'

theorem IsLine.ne_nil {line : List Char} (full : IsLine line) : line ≠ [] := by
  obtain ⟨body, _, rfl⟩ := full
  simp

theorem IsLine.length_pos {line : List Char} (full : IsLine line) : 0 < line.length :=
  List.length_pos_iff.mpr full.ne_nil

theorem IsLine.getLast? {line : List Char} (full : IsLine line) : line.getLast? = some '\n' := by
  obtain ⟨body, _, rfl⟩ := full
  simp

theorem IsLine.endsLine {line : List Char} (full : IsLine line) : EndsLine line :=
  .inr full.getLast?

theorem IsLine.of_append {front back : List Char} (full : IsLine (front ++ back))
    (left : back ≠ []) : IsLine back := by
  obtain ⟨body, free, same⟩ := full
  obtain ⟨back, last, rfl⟩ := List.eq_nil_or_concat back |>.resolve_left left
  rw [List.concat_eq_append, ← List.append_assoc] at same
  obtain ⟨rfl, rfl⟩ := List.append_singleton_inj.mp same
  refine ⟨back, ?_, by simp⟩
  intro member
  exact free (List.mem_append_right _ member)

theorem EndsLine.append {first second : List Char} (left : EndsLine first)
    (right : EndsLine second) : EndsLine (first ++ second) := by
  rcases right with rfl | ended
  · simpa using left
  · right
    rw [List.getLast?_append, ended]
    rfl

theorem EndsLine.of_getLast? {back : List Char} (front : List Char)
    (last : back.getLast? = some '\n') : EndsLine (front ++ back) := by
  right
  rw [List.getLast?_append, last]
  rfl

theorem EndsLine.of_append {first second : List Char} (ended : EndsLine (first ++ second)) :
    EndsLine second := by
  by_cases empty : second = []
  · exact .inl empty
  · rcases ended with nothing | last
    · exact absurd (List.append_eq_nil_iff.mp nothing).2 empty
    · right
      rw [List.getLast?_append, List.getLast?_eq_some_getLast empty, Option.some_or] at last
      rw [List.getLast?_eq_some_getLast empty, last]

theorem EndsLine.of_open {text : List Char} (ended : EndsLine text) (free : '\n' ∉ text) :
    text = [] := by
  rcases ended with empty | last
  · exact empty
  · exact absurd (List.mem_of_getLast? last) free

theorem takeLine_of_isLine {line : List Char} (full : IsLine line) (rest : List Char) :
    takeLine (line ++ rest) = (line, rest) := by
  obtain ⟨body, free, rfl⟩ := full
  induction body with
  | nil => simp [takeLine]
  | cons c body ih =>
    have head : c ≠ '\n' := fun same => free (by simp [same])
    have tail : '\n' ∉ body := fun member => free (List.mem_cons_of_mem _ member)
    have rest := ih tail
    simp only [List.cons_append, takeLine, head, if_false, rest]

theorem IsLine.unique {first second rest others : List Char} (full : IsLine first)
    (other : IsLine second) (same : first ++ rest = second ++ others) :
    first = second ∧ rest = others := by
  have cut := takeLine_of_isLine full rest
  rw [same, takeLine_of_isLine other] at cut
  injection cut with line behind
  exact ⟨line.symm, behind.symm⟩

theorem takeLine_of_open {text : List Char} (free : '\n' ∉ text) : takeLine text = (text, []) := by
  induction text with
  | nil => rfl
  | cons c rest ih =>
    have head : c ≠ '\n' := fun same => free (by simp [same])
    have tail : '\n' ∉ rest := fun member => free (List.mem_cons_of_mem _ member)
    simp only [takeLine, head, if_false, ih tail]

/-- A text without a full line in front has no line feed at all. -/
theorem line_or_open (text : List Char) :
    '\n' ∉ text ∨ ∃ line rest, IsLine line ∧ text = line ++ rest := by
  by_cases member : '\n' ∈ text
  · obtain ⟨body, rest, same, free⟩ := List.append_of_mem member |>.elim fun _ _ =>
      List.eq_append_cons_of_mem member
    refine .inr ⟨body ++ ['\n'], rest, ⟨body, free, rfl⟩, ?_⟩
    rw [same]
    simp
  · exact .inl member

theorem IsLine.eq_of_prefix {line front : List Char} (full : IsLine line) (starts : front <+: line)
    (ended : EndsLine front) : front = [] ∨ front = line := by
  rcases line_or_open front with free | ⟨first, more, first_full, rfl⟩
  · exact .inl (ended.of_open free)
  · obtain ⟨rest, whole⟩ := starts
    have same : line ++ [] = first ++ (more ++ rest) := by
      rw [List.append_nil, ← whole, List.append_assoc]
    obtain ⟨rfl, none⟩ := full.unique first_full same
    right
    rw [(List.append_eq_nil_iff.mp none.symm).1, List.append_nil]

@[simp] theorem lines_nil : lines [] = [] := by rw [lines]

theorem lines_of_isLine {line : List Char} (full : IsLine line) (rest : List Char) :
    lines (line ++ rest) = line :: lines rest := by
  have cut := takeLine_of_isLine full rest
  cases line with
  | nil => exact absurd rfl full.ne_nil
  | cons c line =>
    rw [List.cons_append] at cut ⊢
    rw [lines]
    simp only [takeLine] at cut
    split at cut
    · rename_i feed
      obtain ⟨same, after⟩ := Prod.mk.inj cut
      rw [if_pos feed, same, after]
    · rename_i other
      obtain ⟨same, after⟩ := Prod.mk.inj cut
      rw [if_neg other, same, after]

theorem lines_of_open {text : List Char} (free : '\n' ∉ text) (left : text ≠ []) :
    lines text = [text] := by
  cases text with
  | nil => exact absurd rfl left
  | cons c rest =>
    have head : c ≠ '\n' := fun same => free (by simp [same])
    have tail : '\n' ∉ rest := fun member => free (List.mem_cons_of_mem _ member)
    rw [lines, if_neg head, takeLine_of_open tail, lines_nil]

/-- Induction over the lines of a text from the first to the last, which may lack its line feed. -/
theorem lines_induction {motive : List Char → Prop} (unended : ∀ text, '\n' ∉ text → motive text)
    (line : ∀ line rest, IsLine line → motive rest → motive (line ++ rest)) (text : List Char) :
    motive text := by
  rcases line_or_open text with free | ⟨first, rest, full, rfl⟩
  · exact unended text free
  · exact line first rest full (lines_induction unended line rest)
termination_by text.length
decreasing_by
  subst_vars
  have := full.length_pos
  simp only [List.length_append]
  omega

@[simp] theorem flatten_lines (text : List Char) : (lines text).flatten = text := by
  induction text using lines_induction with
  | unended text free =>
    by_cases empty : text = []
    · simp [empty]
    · simp [lines_of_open free empty]
  | line line rest full ih => simp [lines_of_isLine full, ih]

theorem lines_append {first : List Char} (ended : EndsLine first) (second : List Char) :
    lines (first ++ second) = lines first ++ lines second := by
  induction first using lines_induction with
  | unended text free => simp [ended.of_open free]
  | line line rest full ih =>
    rw [List.append_assoc, lines_of_isLine full, lines_of_isLine full, ih ended.of_append,
      List.cons_append]

/-- The first row of a text is a full line, or it has the whole text. -/
theorem lines_eq_cons {text row : List Char} {rows : List (List Char)}
    (split : lines text = row :: rows) :
    IsLine row ∧ lines rows.flatten = rows ∨ lines row = [row] ∧ rows = [] := by
  rcases line_or_open text with free | ⟨line, rest, full, rfl⟩
  · have left : text ≠ [] := by
      rintro rfl
      simp at split
    have cut := lines_of_open free left
    rw [cut] at split
    obtain ⟨rfl, none⟩ := List.cons.inj split
    exact .inr ⟨cut, none.symm⟩
  · rw [lines_of_isLine full] at split
    obtain ⟨rfl, rfl⟩ := List.cons.inj split
    exact .inl ⟨full, by rw [flatten_lines]⟩

theorem lines_of_suffix {text : List Char} {first second : List (List Char)}
    (split : lines text = first ++ second) : lines second.flatten = second := by
  induction first generalizing text with
  | nil =>
    rw [List.nil_append] at split
    rw [← split, flatten_lines]
  | cons row first ih =>
    rcases lines_eq_cons split with ⟨_, behind⟩ | ⟨_, none⟩
    · exact ih behind
    · simp [(List.append_eq_nil_iff.mp none).2]

theorem lines_of_prefix_rows {text : List Char} {first second : List (List Char)}
    (split : lines text = first ++ second) : lines first.flatten = first := by
  induction first generalizing text with
  | nil => exact lines_nil
  | cons row first ih =>
    rcases lines_eq_cons split with ⟨full, behind⟩ | ⟨alone, none⟩
    · rw [List.flatten_cons, lines_of_isLine full, ih behind]
    · obtain ⟨rfl, _⟩ := List.append_eq_nil_iff.mp none
      simpa using alone

/-- A text without line feeds that starts a line stays inside it. -/
theorem prefix_line_iff {phrase line : List Char} (free : '\n' ∉ phrase) (full : IsLine line)
    (rest : List Char) : phrase <+: line ++ rest ↔ phrase <+: line := by
  constructor
  · intro starts
    obtain ⟨body, _, rfl⟩ := full
    rw [List.append_assoc] at starts
    rcases List.prefix_or_prefix_of_prefix starts (List.prefix_append body _) with inside | beyond
    · exact inside.trans (List.prefix_append _ _)
    · obtain ⟨more, rfl⟩ := beyond
      have behind : more <+: '\n' :: rest := by simpa using starts
      cases more with
      | nil => simp
      | cons c more =>
        obtain ⟨rfl, _⟩ := List.cons_prefix_cons.mp behind
        simp at free
  · intro starts
    exact starts.trans (List.prefix_append _ _)

theorem free_unifyNewlines (text : List Char) : '\r' ∉ unifyNewlines text := by
  fun_induction unifyNewlines text with
  | case1 => simp
  | case2 rest ih => simpa using ih
  | case3 rest _ ih => simpa using ih
  | case4 c rest _ other ih =>
    have differ : '\r' ≠ c := fun same => other same.symm
    simp [differ, ih]

theorem unifyNewlines_of_free {text : List Char} (free : '\r' ∉ text) :
    unifyNewlines text = text := by
  fun_induction unifyNewlines text with
  | case1 => rfl
  | case2 rest ih => simp at free
  | case3 rest _ ih => simp at free
  | case4 c rest _ other ih => rw [ih fun member => free (List.mem_cons_of_mem _ member)]

/-- A line ending is cut in two only behind a carriage return. -/
theorem unifyNewlines_append {first : List Char} (whole : first.getLast? ≠ some '\r')
    (second : List Char) :
    unifyNewlines (first ++ second) = unifyNewlines first ++ unifyNewlines second := by
  have behind : ∀ {c : Char} {rest : List Char}, (c :: rest).getLast? ≠ some '\r' →
      rest.getLast? ≠ some '\r' := by
    intro c rest whole last
    rw [List.getLast?_cons, last] at whole
    exact whole rfl
  fun_induction unifyNewlines first with
  | case1 => rfl
  | case2 rest ih =>
    simp only [List.cons_append, unifyNewlines, ih (behind (behind whole))]
  | case3 rest single ih =>
    cases rest with
    | nil => exact absurd rfl whole
    | cons c rest =>
      have other : c ≠ '\n' := fun same => single rest (by rw [same])
      have next := ih (behind whole)
      simp only [List.cons_append] at next ⊢
      simp [unifyNewlines, other, next]
  | case4 c rest _ other ih =>
    have next := ih (behind whole)
    simp only [List.cons_append]
    rw [unifyNewlines, next]
    · exact fun _ same _ => other same
    · exact other

theorem unifyNewlines_ne_nil {text : List Char} (some : text ≠ []) : unifyNewlines text ≠ [] := by
  fun_cases unifyNewlines text with
  | case1 => exact absurd rfl some
  | case2 rest => exact List.cons_ne_nil _ _
  | case3 rest _ => exact List.cons_ne_nil _ _
  | case4 c rest _ _ => exact List.cons_ne_nil _ _

theorem EndsLine.unifyNewlines {text : List Char} (ended : EndsLine text) :
    EndsLine (unifyNewlines text) := by
  have feed : EndsLine ['\n'] := .inr rfl
  fun_induction Text.unifyNewlines text with
  | case1 => exact .inl rfl
  | case2 rest ih => exact feed.append (ih (@EndsLine.of_append ['\r', '\n'] rest ended))
  | case3 rest _ ih => exact feed.append (ih (@EndsLine.of_append ['\r'] rest ended))
  | case4 c rest _ _ ih =>
    have tail : EndsLine rest := @EndsLine.of_append [c] rest ended
    rcases ih tail with none | last
    · cases rest with
      | nil => exact ended
      | cons d rest => exact absurd none (unifyNewlines_ne_nil (List.cons_ne_nil d rest))
    · exact EndsLine.of_getLast? [c] last

theorem EndsLine.last_ne {text : List Char} (ended : EndsLine text) :
    text.getLast? ≠ some '\r' := by
  intro last
  rcases ended with rfl | feed
  · cases last
  · rw [feed] at last
    exact absurd last (by decide)

theorem last_ne_of_free {text : List Char} (free : '\r' ∉ text) : text.getLast? ≠ some '\r' :=
  fun last => free (List.mem_of_getLast? last)

end ApiSections.Text
