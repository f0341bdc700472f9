import ApiSections.Proofs.Document.Boundary
import ApiSections.Proofs.Document.Layout

/-!
Splicing seen on a layout: headings are normalized, and each marker is followed by an empty line,
its fragment and what the passage below it holds from the end of the region on.
-/

namespace ApiSections.Document

open Text

namespace Marker

def normalized (marker : Marker) : Marker :=
  { marker with above := Document.normalized marker.above }

/-- What the passage below a marker holds behind the region. -/
def tail (marker : Marker) (below : List Char) : List Char :=
  below.drop (boundaryAfter marker.level false (lines below))

/-- The passage below a marker once its region is filled. -/
def filled (marker : Marker) (fragment below : List Char) : List Char :=
  '\n' :: (fragment ++ marker.tail below)

theorem level_normalized (marker : Marker) : marker.normalized.level = marker.level := by
  rw [level, level, normalized, headingLevel?_normalized]

theorem tail_normalized (marker : Marker) (below : List Char) :
    marker.normalized.tail below = marker.tail below := by
  rw [tail, tail, level_normalized]

theorem filled_normalized (marker : Marker) (fragment : List Char) :
    marker.normalized.filled fragment = marker.filled fragment := by
  funext below
  rw [filled, filled, tail_normalized]

theorem Proper.normalized {phrase : List Char} {marker : Marker} (plain : PlainPhrase phrase)
    (proper : marker.Proper phrase) : marker.normalized.Proper phrase where
  above_line := isLine_normalized proper.named proper.above_line
  unmarked := normalized_unmarked plain.some_char plain.no_heading proper.unmarked
  named := isEmptyHeading_normalized proper.named
  closed := proper.closed

theorem normalized_normalized {phrase : List Char} {marker : Marker}
    (proper : marker.Proper phrase) : marker.normalized.normalized = marker.normalized := by
  simp only [normalized, Document.normalized_normalized proper.named]

theorem replacement_eq (marker : Marker) (offset : Nat) (below fragment : List Char) :
    (marker.region offset below).replacement fragment =
      marker.normalized.text ++ '\n' :: fragment := by
  simp only [Region.replacement, region, text, normalized]
  cases level : headingLevel? marker.above with
  | none => simp [title, normalized_of_none, level]
  | some depth => simp [normalized_of_level level]

end Marker

namespace Layout

/-- A layout with its regions filled; `cut` is what becomes of the passage in front. -/
def fill (cut : List Char → List Char) : Layout → List (List Char) → Layout
  | .final passage, _ => .final (cut passage)
  | .marked passage marker rest, fragments =>
    .marked (cut passage) marker.normalized
      (rest.fill (marker.filled (fragments.headD [])) fragments.tail)

theorem fill_congr {layout : Layout} {cut other : List Char → List Char}
    (same : cut layout.front = other layout.front) (fragments : List (List Char)) :
    layout.fill cut fragments = layout.fill other fragments := by
  cases layout with
  | final passage => exact congrArg Layout.final same
  | marked passage marker rest =>
    rw [fill, fill]
    exact congrArg (Layout.marked · _ _) same

theorem text_fill_append (layout : Layout) (front : List Char) (cut : List Char → List Char)
    (fragments : List (List Char)) :
    (layout.fill (fun passage => front ++ cut passage) fragments).text =
      front ++ (layout.fill cut fragments).text := by
  cases layout <;> simp [fill, text]

/-- The assembled text from a point of the passage in front on is the filled layout. -/
theorem assemble_regions {text : List Char} {layout : Layout} {offset skip : Nat}
    (rest : text.drop offset = layout.text) (inside : skip ≤ layout.front.length)
    {fragments : List (List Char)} (count : fragments.length = layout.markers.length) :
    assemble text (offset + skip) ((layout.regions offset).zip fragments) =
      (layout.fill (List.drop skip) fragments).text := by
  induction layout generalizing offset skip fragments with
  | final passage =>
    rw [regions, List.zip_nil_left, assemble, ← List.drop_drop, rest]
    rfl
  | marked passage marker behind ih =>
    cases fragments with
    | nil => simp [markers] at count
    | cons fragment fragments =>
      have below : text.drop (offset + passage.length + marker.text.length) = behind.text := by
        rw [Nat.add_assoc, ← List.drop_drop, rest, Layout.text, ← List.append_assoc,
          ← List.length_append, List.drop_left]
      have bound : boundaryAfter marker.level false (lines behind.front) ≤ behind.front.length := by
        have := boundaryAfter_le marker.level false (lines behind.front)
        rwa [flatten_lines] at this
      have between : (text.drop (offset + skip)).take (offset + passage.length - (offset + skip)) =
          passage.drop skip := by
        simp only [front] at inside
        rw [← List.drop_drop, rest, Layout.text, List.drop_append_of_le_length inside]
        apply List.take_left'
        rw [List.length_drop]
        omega
      have later := ih below bound (by simpa [markers] using count)
      have cut := text_fill_append behind ('\n' :: fragment) marker.tail fragments
      have same : behind.fill marker.tail fragments =
          behind.fill (List.drop (boundaryAfter marker.level false (lines behind.front)))
            fragments := by
        apply fill_congr
        rfl
      rw [regions, List.zip_cons_cons, assemble, Marker.replacement_eq]
      change (text.drop (offset + skip)).take (offset + passage.length - (offset + skip)) ++ _ ++
        assemble text (offset + passage.length + marker.text.length + _) _ = _
      rw [between, later, ← same, fill, Layout.text]
      simp only [List.headD_cons, List.tail_cons]
      rw [show marker.filled fragment = (fun below => '\n' :: fragment ++ marker.tail below) from rfl,
        cut]
      simp only [List.append_assoc]

end Layout

/-- The tail of a passage consists of its last lines, of which the first ends a region. -/
theorem Marker.tail_lines (marker : Marker) (below : List Char) :
    ∃ first, lines below = first ++ lines (marker.tail below) ∧
      ∀ row ∈ (lines (marker.tail below)).head?,
        isFenceLine row = false ∧ endsRegion marker.level row = true := by
  obtain ⟨first, second, split, count, stop⟩ :=
    boundaryAfter_split marker.level false (lines below)
  have same : marker.tail below = second.flatten := by
    have whole := flatten_lines below
    rw [split, List.flatten_append] at whole
    rw [Marker.tail, count]
    conv => lhs; rw [← whole]
    exact List.drop_left
  have rows := lines_of_suffix split
  refine ⟨first, ?_, ?_⟩
  · rw [same, rows, split]
  · rw [same, rows]
    exact fun row head => ⟨(stop row head).other, (stop row head).ends⟩

theorem Marker.tail_plain {phrase below : List Char} (marker : Marker)
    (plain : Plain phrase below) : Plain phrase (marker.tail below) := by
  obtain ⟨first, split, _⟩ := marker.tail_lines below
  intro row member
  exact plain row (by rw [split]; exact List.mem_append_right _ member)

theorem Marker.tail_ends {below : List Char} (marker : Marker) (ended : EndsLine below) :
    EndsLine (marker.tail below) := by
  rw [← List.take_append_drop (boundaryAfter marker.level false (lines below)) below] at ended
  exact ended.of_append

theorem lines_newline (text : List Char) : lines ('\n' :: text) = ['\n'] :: lines text :=
  lines_of_isLine ⟨[], by simp, rfl⟩ text

theorem Plain.filled {phrase fragment passage : List Char} (phrase_plain : PlainPhrase phrase)
    (ended : EndsLine fragment) (inner : Plain phrase fragment) (outer : Plain phrase passage) :
    Plain phrase ('\n' :: (fragment ++ passage)) := by
  intro row member
  rw [lines_newline, lines_append ended] at member
  rcases List.mem_cons.mp member with rfl | member
  · refine ⟨?_, by decide⟩
    intro starts
    cases phrase with
    | nil => exact phrase_plain.some_char rfl
    | cons c phrase =>
      obtain ⟨same, _⟩ := List.cons_prefix_cons.mp starts
      exact phrase_plain.one_line (by simp [same])
  · rcases List.mem_append.mp member with member | member
    · exact inner row member
    · exact outer row member

theorem Layout.Proper.front_plain {phrase : List Char} {layout : Layout}
    (proper : layout.Proper phrase) : Plain phrase layout.front := by
  cases layout with
  | final passage => exact proper
  | marked passage marker rest => exact proper.1

/-- A layout that runs out of fragments is filled with empty ones. -/
theorem headD_of_forall {given : List Char → Prop} (empty : given [])
    {fragments : List (List Char)} (each : ∀ fragment ∈ fragments, given fragment) :
    given (fragments.headD []) := by
  cases fragments with
  | nil => exact empty
  | cons fragment fragments => exact each fragment List.mem_cons_self

theorem headD_plain {phrase : List Char} {fragments : List (List Char)}
    (fragments_plain : ∀ fragment ∈ fragments, EndsLine fragment ∧ Plain phrase fragment) :
    EndsLine (fragments.headD []) ∧ Plain phrase (fragments.headD []) :=
  headD_of_forall ⟨.inl rfl, by simp [Plain]⟩ fragments_plain

theorem Layout.Proper.fill {phrase : List Char} (plain : PlainPhrase phrase) {layout : Layout}
    (proper : layout.Proper phrase) {cut : List Char → List Char}
    (front_plain : Plain phrase (cut layout.front))
    (front_ends : EndsLine layout.front → EndsLine (cut layout.front))
    {fragments : List (List Char)}
    (fragments_plain : ∀ fragment ∈ fragments, EndsLine fragment ∧ Plain phrase fragment) :
    (layout.fill cut fragments).Proper phrase := by
  induction layout generalizing cut fragments with
  | final passage => exact front_plain
  | marked passage marker rest ih =>
    obtain ⟨_, ended, marks, behind⟩ := proper
    have first := headD_plain fragments_plain
    refine ⟨front_plain, front_ends ended, marks.normalized plain, ih behind ?_ ?_ ?_⟩
    · exact Plain.filled plain first.1 first.2 (marker.tail_plain behind.front_plain)
    · intro rest_ends
      have feed : IsLine ['\n'] := ⟨[], by simp, rfl⟩
      exact feed.endsLine.append (first.1.append (marker.tail_ends rest_ends))
    · intro fragment member
      exact fragments_plain fragment (List.mem_of_mem_tail member)

/-- Every fragment ends where its region is read to end. -/
def Layout.Holds : Layout → List (List Char) → Prop
  | .final _, _ => True
  | .marked _ marker rest, fragments =>
    marker.tail (marker.filled (fragments.headD []) rest.front) = marker.tail rest.front ∧
      rest.Holds fragments.tail

/-- Filling a layout again replaces the fragments and nothing else. -/
theorem Layout.fill_fill {phrase : List Char} {layout : Layout} (proper : layout.Proper phrase)
    (cut again : List Char → List Char) {fragments : List (List Char)}
    (holds : layout.Holds fragments) (others : List (List Char)) :
    (layout.fill cut fragments).fill again others = layout.fill (again ∘ cut) others := by
  induction layout generalizing cut again fragments others with
  | final passage => rfl
  | marked passage marker rest ih =>
    obtain ⟨_, _, marks, behind⟩ := proper
    rw [fill, fill, fill, Marker.normalized_normalized marks, ih behind _ _ holds.2]
    congr 1
    apply fill_congr
    rw [Function.comp_apply, Marker.filled_normalized, Marker.filled, holds.1, Marker.filled]

theorem Layout.markers_fill (layout : Layout) (cut : List Char → List Char)
    (fragments : List (List Char)) :
    (layout.fill cut fragments).markers = layout.markers.map Marker.normalized := by
  induction layout generalizing cut fragments with
  | final passage => rfl
  | marked passage marker rest ih => rw [fill, markers, markers, List.map_cons, ih]

theorem Layout.regions_map {α : Type} (layout : Layout) (offset : Nat) (view : Region → α)
    (own : Marker → α)
    (same : ∀ marker start below, view (Marker.region marker start below) = own marker) :
    (layout.regions offset).map view = layout.markers.map own := by
  induction layout generalizing offset with
  | final passage => rfl
  | marked passage marker rest ih => simp only [regions, markers, List.map_cons, same, ih]

end ApiSections.Document
