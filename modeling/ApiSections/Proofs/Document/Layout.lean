import ApiSections.Proofs.Document.Heading
import ApiSections.Proofs.Document.Splicing
import Mathlib.Data.List.Chain

/-!
A document whose markers can be told from its lines alone: plain passages with markers between
them. The regions that are found in such a document follow its layout.
-/

namespace ApiSections.Document

open Text

/-- A phrase that cannot be mistaken for the end of a line or the start of a heading. -/
structure PlainPhrase (phrase : List Char) : Prop where
  some_char : phrase ≠ []
  one_line : '\n' ∉ phrase
  no_heading : phrase.head? ≠ some '#'

/-- A passage without markers and without empty headings. -/
def Plain (phrase passage : List Char) : Prop :=
  ∀ line ∈ lines passage, ¬ phrase <+: line ∧ isEmptyHeading line = false

/-- The two lines of a marker, with the source that the second one names. -/
structure Marker where
  above : List Char
  line : List Char
  source : List Char

namespace Marker

def text (marker : Marker) : List Char := marker.above ++ marker.line

def level (marker : Marker) : Nat := (headingLevel? marker.above).getD defaultLevel

structure Proper (phrase : List Char) (marker : Marker) : Prop where
  above_line : IsLine marker.above
  unmarked : ¬ phrase <+: marker.above
  named : isEmptyHeading marker.above = false
  closed : ClosedMarker phrase marker.source marker.line

def region (marker : Marker) (offset : Nat) (below : List Char) : Region :=
  { start := offset
    stop := offset + marker.text.length + boundaryAfter marker.level false (lines below)
    baseLevel := marker.level
    hashes := headingLevel? marker.above
    markerText := title marker.above ++ marker.line
    source := marker.source }

end Marker

/-- A document as passages with markers between them. -/
inductive Layout where
  | final (passage : List Char)
  | marked (passage : List Char) (marker : Marker) (rest : Layout)

namespace Layout

def text : Layout → List Char
  | .final passage => passage
  | .marked passage marker rest => passage ++ (marker.text ++ rest.text)

/-- The passage in front of the first marker. -/
def front : Layout → List Char
  | .final passage => passage
  | .marked passage _ _ => passage

def markers : Layout → List Marker
  | .final _ => []
  | .marked _ marker rest => marker :: rest.markers

/-- Only the last passage may end without a line feed. -/
def Proper (phrase : List Char) : Layout → Prop
  | .final passage => Plain phrase passage
  | .marked passage marker rest =>
    Plain phrase passage ∧ EndsLine passage ∧ marker.Proper phrase ∧ rest.Proper phrase

def hits (offset : Nat) : Layout → List (Nat × Match)
  | .final _ => []
  | .marked passage marker rest =>
    (offset + passage.length, lineMatch marker.above marker.line marker.source) ::
      rest.hits (offset + passage.length + marker.text.length)

def regions (offset : Nat) : Layout → List Region
  | .final _ => []
  | .marked passage marker rest =>
    marker.region (offset + passage.length) rest.front ::
      rest.regions (offset + passage.length + marker.text.length)

end Layout

theorem matchesFrom_plain_line {phrase line rest : List Char} (full : IsLine line)
    (named : isEmptyHeading line = false) (other : ¬ phrase <+: rest) (offset : Nat) :
    matchesFrom phrase offset 0 true (line ++ rest) =
      matchesFrom phrase (offset + line.length) 0 true rest := by
  apply matchesFrom_miss full
  rw [matchAt?_of_named full named, reading?_of_not_prefix other]
  rfl

theorem matchesFrom_marker {phrase : List Char} {marker : Marker} (proper : marker.Proper phrase)
    (rest : List Char) (offset : Nat) :
    matchesFrom phrase offset 0 true (marker.text ++ rest) =
      (offset, lineMatch marker.above marker.line marker.source) ::
        matchesFrom phrase (offset + marker.text.length) 0 true rest := by
  have here : matchAt? phrase true (marker.text ++ rest) =
      some (lineMatch marker.above marker.line marker.source) := by
    rw [Marker.text, List.append_assoc, matchAt?_of_named proper.above_line proper.named,
      proper.closed.reading]
    simp only [Option.map_some, List.take_left]
  have size := lineMatch_length proper.named marker.line marker.source
  obtain ⟨lead, above, line, behind, reads⟩ := matchAt?_reads here
  have same : rest = behind := by
    have whole := reads.whole
    have count := reads.length_eq
    rw [size] at count
    exact (List.append_inj whole count).2
  rw [matchesFrom_hit here reads, size, same, Marker.text]

section Scanning

variable {phrase : List Char} (plain : PlainPhrase phrase)

include plain

theorem Plain.not_prefix {passage : List Char} (unmarked : Plain phrase passage) :
    ¬ phrase <+: passage := by
  intro starts
  rcases line_or_open passage with free | ⟨line, rest, full, rfl⟩
  · by_cases empty : passage = []
    · rw [empty] at starts
      exact plain.some_char (List.prefix_nil.mp starts)
    · have member : passage ∈ lines passage := by simp [lines_of_open free empty]
      exact (unmarked passage member).1 starts
  · have member : line ∈ lines (line ++ rest) := by simp [lines_of_isLine full]
    exact (unmarked line member).1 ((prefix_line_iff plain.one_line full rest).mp starts)

theorem Plain.not_prefix_append {passage rest : List Char} (unmarked : Plain phrase passage)
    (ended : EndsLine passage) (other : ¬ phrase <+: rest) : ¬ phrase <+: passage ++ rest := by
  rcases line_or_open passage with free | ⟨line, more, full, rfl⟩
  · rwa [ended.of_open free]
  · have member : line ∈ lines (line ++ more) := by simp [lines_of_isLine full]
    rw [List.append_assoc, prefix_line_iff plain.one_line full]
    exact (unmarked line member).1

theorem Marker.Proper.lines_append {marker : Marker} (proper : marker.Proper phrase)
    {passage : List Char} (ended : EndsLine passage) (rest : List Char) :
    lines (passage ++ (marker.text ++ rest)) =
      lines passage ++ marker.above :: marker.line :: lines rest := by
  rw [Text.lines_append ended, Marker.text, List.append_assoc, lines_of_isLine proper.above_line,
    lines_of_isLine (proper.closed.isLine plain.one_line)]

theorem matchesFrom_plain {passage rest : List Char} (unmarked : Plain phrase passage)
    (ended : EndsLine passage) (other : ¬ phrase <+: rest) (offset : Nat) :
    matchesFrom phrase offset 0 true (passage ++ rest) =
      matchesFrom phrase (offset + passage.length) 0 true rest := by
  induction passage using lines_induction generalizing offset with
  | unended passage free =>
    rw [ended.of_open free]
    rfl
  | line line more full ih =>
    have cut := lines_of_isLine full more
    have here := unmarked line (by simp [cut])
    have behind : Plain phrase more := fun row member => unmarked row (by simp [cut, member])
    have next := behind.not_prefix_append plain ended.of_append other
    rw [List.append_assoc, matchesFrom_plain_line full here.2 next,
      ih behind ended.of_append, List.length_append, Nat.add_assoc]

theorem matchesFrom_final {passage : List Char} (unmarked : Plain phrase passage) (offset : Nat) :
    matchesFrom phrase offset 0 true passage = [] := by
  induction passage using lines_induction generalizing offset with
  | unended passage free => exact matchesFrom_open free offset true
  | line line more full ih =>
    have cut := lines_of_isLine full more
    have here := unmarked line (by simp [cut])
    have behind : Plain phrase more := fun row member => unmarked row (by simp [cut, member])
    rw [matchesFrom_plain_line full here.2 (behind.not_prefix plain), ih behind]

theorem matchesFrom_layout {layout : Layout} (proper : layout.Proper phrase) (offset : Nat) :
    matchesFrom phrase offset 0 true layout.text = layout.hits offset := by
  induction layout generalizing offset with
  | final passage => exact matchesFrom_final plain proper offset
  | marked passage marker rest ih =>
    obtain ⟨unmarked, ended, marks, behind⟩ := proper
    have other : ¬ phrase <+: marker.text ++ rest.text := by
      rw [Marker.text, List.append_assoc, prefix_line_iff plain.one_line marks.above_line]
      exact marks.unmarked
    rw [Layout.text, matchesFrom_plain plain unmarked ended other,
      matchesFrom_marker marks, ih behind, Layout.hits]

end Scanning

theorem boundaryAfter_append (level : Int) (fenced : Bool) (rows more : List (List Char)) :
    min (boundaryAfter level fenced (rows ++ more)) rows.flatten.length =
      boundaryAfter level fenced rows := by
  induction rows generalizing fenced with
  | nil => simp [boundaryAfter]
  | cons row rows ih =>
    have other := ih (!fenced)
    have same := ih fenced
    rw [List.cons_append, boundaryAfter, boundaryAfter, List.flatten_cons, List.length_append]
    split
    · omega
    · split <;> omega

/-- The region below a marker ends inside the passage below it, if only because the next marker
starts behind that. -/
theorem regionsOf_hits {phrase text : List Char} {layout : Layout} (proper : layout.Proper phrase)
    {offset : Nat} (rest : text.drop offset = layout.text) (inside : offset ≤ text.length) :
    regionsOf text (layout.hits offset) = layout.regions offset := by
  induction layout generalizing offset with
  | final passage => rfl
  | marked passage marker behind ih =>
    obtain ⟨_, ended, marks, after⟩ := proper
    have size := congrArg List.length rest
    simp only [Layout.text, List.length_append, List.length_drop] at size
    have below : text.drop (offset + passage.length + marker.text.length) = behind.text := by
      rw [Nat.add_assoc, ← List.drop_drop, rest, Layout.text, ← List.append_assoc,
        ← List.length_append, List.drop_left]
    have tail := ih after below (by omega)
    have boundary : headingBoundary text (offset + passage.length +
        (lineMatch marker.above marker.line marker.source).length) marker.level =
        offset + passage.length + marker.text.length +
          boundaryAfter marker.level false (lines behind.text) := by
      have count : (lineMatch marker.above marker.line marker.source).length = marker.text.length :=
        lineMatch_length marks.named marker.line marker.source
      rw [count, headingBoundary, Nat.min_eq_left (by omega), below]
    have stop : (regionOf text (offset + passage.length)
        (lineMatch marker.above marker.line marker.source)
        ((behind.hits (offset + passage.length + marker.text.length)).head?.map (·.1))).stop =
        offset + passage.length + marker.text.length +
          boundaryAfter marker.level false (lines behind.front) := by
      cases behind with
      | final last => exact boundary
      | marked passage' marker' behind' =>
        have cut := boundaryAfter_append marker.level false (lines passage')
          (lines (marker'.text ++ behind'.text))
        rw [← lines_append after.2.1, flatten_lines] at cut
        change min (headingBoundary text _ marker.level)
          (offset + passage.length + marker.text.length + passage'.length) = _
        rw [boundary, Layout.text, Layout.front, ← cut]
        omega
    rw [Layout.hits, regionsOf, tail, Layout.regions]
    congr 1
    rw [Marker.region, ← stop]
    rfl

theorem findMarkers_layout {phrase : List Char} (plain : PlainPhrase phrase) {layout : Layout}
    (proper : layout.Proper phrase) : findMarkers layout.text phrase = layout.regions 0 := by
  rw [findMarkers, matchesFrom_layout plain proper]
  exact regionsOf_hits proper rfl (Nat.zero_le _)

/-- Every line that starts with the phrase is a closed marker below a line that does not, and no
heading is empty. -/
structure WellMarked (phrase text : List Char) : Prop where
  closed : ∀ line ∈ lines text, phrase <+: line → ∃ source, ClosedMarker phrase source line
  first : ∀ line ∈ (lines text).head?, ¬ phrase <+: line
  apart : (lines text).IsChain fun line next => phrase <+: line → ¬ phrase <+: next
  named : ∀ line ∈ lines text, isEmptyHeading line = false

def Layout.prepend (line : List Char) : Layout → Layout
  | .final passage => .final (line ++ passage)
  | .marked passage marker rest => .marked (line ++ passage) marker rest

theorem Layout.text_prepend (line : List Char) (layout : Layout) :
    (layout.prepend line).text = line ++ layout.text := by
  cases layout <;> simp [Layout.prepend, Layout.text]

theorem Plain.prepend {phrase line passage : List Char} (full : IsLine line)
    (unmarked : ¬ phrase <+: line) (named : isEmptyHeading line = false)
    (plain : Plain phrase passage) : Plain phrase (line ++ passage) := by
  intro row member
  rw [lines_of_isLine full] at member
  rcases List.mem_cons.mp member with rfl | member
  · exact ⟨unmarked, named⟩
  · exact plain row member

theorem Layout.Proper.prepend {phrase line : List Char} {layout : Layout}
    (proper : layout.Proper phrase) (full : IsLine line) (unmarked : ¬ phrase <+: line)
    (named : isEmptyHeading line = false) : (layout.prepend line).Proper phrase := by
  cases layout with
  | final passage => exact Plain.prepend full unmarked named proper
  | marked passage marker rest =>
    obtain ⟨plain, ended, after⟩ := proper
    exact ⟨plain.prepend full unmarked named, full.endsLine.append ended, after⟩

/-- A well-marked document has a layout. Behind a line that starts with the phrase the rest has one,
so that the line above can take it in. -/
theorem exists_layout {phrase : List Char} (plain : PlainPhrase phrase) {text : List Char}
    (closed : ∀ line ∈ lines text, phrase <+: line → ∃ source, ClosedMarker phrase source line)
    (apart : (lines text).IsChain fun line next => phrase <+: line → ¬ phrase <+: next)
    (named : ∀ line ∈ lines text, isEmptyHeading line = false) :
    (¬ phrase <+: text → ∃ layout : Layout, layout.Proper phrase ∧ layout.text = text) ∧
    (phrase <+: text → ∃ line source rest, ClosedMarker phrase source line ∧ text = line ++ rest ∧
      ∃ layout : Layout, layout.Proper phrase ∧ layout.text = rest) := by
  induction text using lines_induction with
  | unended text free =>
    constructor
    · intro other
      refine ⟨.final text, ?_, rfl⟩
      intro line member
      by_cases empty : text = []
      · simp [empty] at member
      · have cut := lines_of_open free empty
        have same : line = text := by simpa [cut] using member
        exact ⟨by rwa [same], named line member⟩
    · intro starts
      -- An open last line cannot be a closed marker, which ends with a line feed.
      have some_text : text ≠ [] := by
        rintro rfl
        exact plain.some_char (List.prefix_nil.mp starts)
      obtain ⟨source, marked⟩ := closed text (by simp [lines_of_open free some_text]) starts
      exact absurd (List.mem_of_getLast? (marked.isLine plain.one_line).getLast?) free
  | line line rest full ih =>
    have cut := lines_of_isLine full rest
    have here : line ∈ lines (line ++ rest) := by simp [cut]
    rw [cut] at apart
    have behind := ih (fun row member => closed row (by simp [cut, member])) apart.of_cons
      (fun row member => named row (by simp [cut, member]))
    have starts_iff := prefix_line_iff plain.one_line full rest
    have next : phrase <+: line → ¬ phrase <+: rest := by
      intro starts follows
      obtain ⟨below, source, after, marked, rfl, _⟩ := behind.2 follows
      rw [lines_of_isLine (marked.isLine plain.one_line)] at apart
      exact apart.rel starts marked.starts
    constructor
    · intro other
      have unmarked : ¬ phrase <+: line := fun starts => other (starts_iff.mpr starts)
      by_cases follows : phrase <+: rest
      · obtain ⟨below, source, after, marked, rfl, layout, proper, same⟩ := behind.2 follows
        refine ⟨.marked [] ⟨line, below, source⟩ layout,
          ⟨by simp [Plain], .inl rfl, ⟨full, unmarked, named line here, marked⟩, proper⟩, ?_⟩
        simp [Layout.text, Marker.text, same]
      · obtain ⟨layout, proper, same⟩ := behind.1 follows
        refine ⟨layout.prepend line, proper.prepend full unmarked (named line here), ?_⟩
        rw [Layout.text_prepend, same]
    · intro starts
      have marked := starts_iff.mp starts
      obtain ⟨source, closed⟩ := closed line here marked
      obtain ⟨layout, proper, same⟩ := behind.1 (next marked)
      exact ⟨line, source, rest, closed, rfl, layout, proper, same⟩

theorem WellMarked.exists_layout {phrase : List Char} (plain : PlainPhrase phrase)
    {text : List Char} (marked : WellMarked phrase text) :
    ∃ layout : Layout, layout.Proper phrase ∧ layout.text = text := by
  apply (Document.exists_layout plain marked.closed marked.apart marked.named).1
  intro starts
  rcases line_or_open text with free | ⟨line, rest, full, rfl⟩
  · by_cases empty : text = []
    · rw [empty] at starts
      exact plain.some_char (List.prefix_nil.mp starts)
    · exact marked.first text (by simp [lines_of_open free empty]) starts
  · exact marked.first line (by simp [lines_of_isLine full])
      ((prefix_line_iff plain.one_line full rest).mp starts)

end ApiSections.Document
