import ApiSections.Proofs.Document.Layout
import Mathlib.Data.List.Forall2

/-!
Markers read line by line. In a well-marked document each line that starts with the phrase has one
region, and the region can be told from that line, the line above it and the headings below it.
-/

namespace ApiSections.Document

open Text

/-- The lines of a text that start with the phrase, each with its place among the lines. -/
def markerRows (phrase text : List Char) : List (List Char × Nat) :=
  (lines text).zipIdx.filter fun row => phrase.isPrefixOf row.1

/-- What the marker line of a region, the line above it and the lines `before` those say about the
region. The next region starts at `next`, if there is one. -/
structure Region.ReadsFrom (phrase text : List Char) (before : List (List Char))
    (above line : List Char) (next : Option Nat) (region : Region) : Prop where
  start : region.start = before.flatten.length
  hashes : ∀ depth, region.hashes = some depth ↔ IsHeading depth above
  level : region.baseLevel = region.hashes.getD 2
  source : ClosedMarker phrase region.source line
  stop :
    let below := (before ++ [above, line]).flatten.length
    let boundary := headingBoundary text below region.baseLevel
    region.stop = next.elim boundary (min boundary)

theorem getElem?_regionsOf (text : List Char) (hits : List (Nat × Match)) (i : Nat) :
    (regionsOf text hits)[i]? =
      hits[i]?.map fun hit => regionOf text hit.1 hit.2 (hits[i + 1]?.map (·.1)) := by
  induction hits generalizing i with
  | nil => rfl
  | cons hit hits ih =>
    cases i with
    | zero => simp [regionsOf, List.head?_eq_getElem?]
    | succ i => simpa [regionsOf] using ih i

theorem length_regionsOf (text : List Char) (hits : List (Nat × Match)) :
    (regionsOf text hits).length = hits.length := by
  induction hits with
  | nil => rfl
  | cons hit hits ih => rw [regionsOf, List.length_cons, List.length_cons, ih]

/-- A match and the row of its marker. -/
def MatchAt (phrase : List Char) (rows : List (List Char)) (hit : Nat × Match)
    (row : List Char × Nat) : Prop :=
  ∃ before, ∃ marker : Marker, ∃ after, rows = before ++ marker.above :: marker.line :: after ∧
    row = (marker.line, before.length + 1) ∧ marker.Proper phrase ∧
    hit = (before.flatten.length, lineMatch marker.above marker.line marker.source)

theorem MatchAt.readsFrom {phrase text : List Char} {hit : Nat × Match} {row : List Char × Nat}
    (found : MatchAt phrase (lines text) hit row) (next : Option Nat) :
    ∃ before above after, lines text = before ++ above :: row.1 :: after ∧
      row.2 = before.length + 1 ∧
      (regionOf text hit.1 hit.2 next).ReadsFrom phrase text before above row.1 next := by
  obtain ⟨before, marker, after, split, rfl, proper, rfl⟩ := found
  refine ⟨before, marker.above, after, split, rfl, rfl, ?_, rfl, proper.closed, ?_⟩
  · intro depth
    exact headingLevel?_eq_some_iff
  · have size := lineMatch_length proper.named marker.line marker.source
    have below : (before ++ [marker.above, marker.line]).flatten.length =
        before.flatten.length + (marker.above ++ marker.line).length := by simp
    simp only [regionOf, size, below]
    cases next <;> rfl

theorem filter_unmarked {phrase : List Char} {rows : List (List Char)}
    (unmarked : ∀ row ∈ rows, ¬ phrase <+: row) (first : Nat) :
    (rows.zipIdx first).filter (fun row => phrase.isPrefixOf row.1) = [] := by
  rw [List.filter_eq_nil_iff]
  intro row member starts
  exact unmarked row.1 (List.fst_mem_of_mem_zipIdx member) (List.isPrefixOf_iff_prefix.mp starts)

/-- The matches of a layout are those of the rows that start with the phrase. The layout stands below
`front`, so that offsets and rows are counted from the start of the document. -/
theorem Layout.hits_matchAt {phrase : List Char} (plain : PlainPhrase phrase) {layout : Layout}
    (proper : layout.Proper phrase) (front : List (List Char)) :
    List.Forall₂ (MatchAt phrase (front ++ lines layout.text)) (layout.hits front.flatten.length)
      (((lines layout.text).zipIdx front.length).filter fun row => phrase.isPrefixOf row.1) := by
  induction layout generalizing front with
  | final passage =>
    rw [text, filter_unmarked fun row member => (proper row member).1]
    exact .nil
  | marked passage marker rest ih =>
    obtain ⟨passage_plain, ended, marks, behind⟩ := proper
    rw [text, hits, marks.lines_append plain ended, List.zipIdx_append, List.filter_append,
      filter_unmarked fun row member => (passage_plain row member).1, List.nil_append,
      List.zipIdx_cons, List.zipIdx_cons, List.filter_cons_of_neg (by simpa using marks.unmarked),
      List.filter_cons_of_pos (by simpa using marks.closed.starts)]
    refine .cons ⟨front ++ lines passage, marker, lines rest.text, ?_, ?_, marks, ?_⟩ ?_
    · rw [List.append_assoc]
    · rw [List.length_append]
    · rw [List.flatten_append, flatten_lines, List.length_append]
    · have later := ih behind (front ++ lines passage ++ [marker.above, marker.line])
      have size : (front ++ lines passage ++ [marker.above, marker.line]).flatten.length =
          front.flatten.length + passage.length + marker.text.length := by
        simp [Marker.text, Nat.add_assoc]
      have count : (front ++ lines passage ++ [marker.above, marker.line]).length =
          front.length + (lines passage).length + 1 + 1 := by
        simp [Nat.add_assoc]
      have whole : front ++ lines passage ++ [marker.above, marker.line] ++ lines rest.text =
          front ++ (lines passage ++ marker.above :: marker.line :: lines rest.text) := by
        simp
      rwa [size, count, whole] at later

/-- The regions of a well-marked document are those of the lines that start with the phrase, in their
order, and each is what its lines say. -/
theorem findMarkers_rows {phrase text : List Char} (plain : PlainPhrase phrase)
    (marked : WellMarked phrase text) :
    let regions := findMarkers text phrase
    let rows := markerRows phrase text
    regions.length = rows.length ∧
    ∀ (i : Nat) (region : Region) (row : List Char × Nat),
      regions[i]? = some region → rows[i]? = some row →
      ∃ before above after, lines text = before ++ above :: row.1 :: after ∧
        row.2 = before.length + 1 ∧
        region.ReadsFrom phrase text before above row.1 (regions[i + 1]?.map Region.start) := by
  intro regions rows
  obtain ⟨layout, proper, rfl⟩ := marked.exists_layout plain
  have found : regions = regionsOf layout.text (layout.hits 0) := by
    simp only [regions, findMarkers, matchesFrom_layout plain proper]
  have paired : List.Forall₂ (MatchAt phrase (lines layout.text)) (layout.hits 0) rows :=
    Layout.hits_matchAt plain proper []
  constructor
  · rw [found, length_regionsOf, paired.length_eq]
  · intro i region row here there
    rw [found, getElem?_regionsOf, Option.map_eq_some_iff] at here
    obtain ⟨hit, among, rfl⟩ := here
    have next : regions[i + 1]?.map Region.start = (layout.hits 0)[i + 1]?.map (·.1) := by
      rw [found, getElem?_regionsOf, Option.map_map]
      rfl
    have member : (hit, row) ∈ (layout.hits 0).zip rows :=
      List.mem_of_getElem? (List.getElem?_zip_eq_some.mpr ⟨among, there⟩)
    rw [next]
    exact (List.forall₂_zip paired member).readsFrom _

/-- The region below the heading ends where the line above the second marker starts. -/
theorem findMarkers_rows_two :
    let phrase := "P".toList
    let text := "##\t A\nP a:\n### B\nx\nP `b`\n".toList
    let regions := findMarkers text phrase
    markerRows phrase text = [("P a:\n".toList, 1), ("P `b`\n".toList, 4)] ∧
    regions.length = 2 ∧ regions[1]?.map Region.start = some 17 ∧
    ∀ region : Region, regions[0]? = some region →
      ∃ before above after, lines text = before ++ above :: "P a:\n".toList :: after ∧
        1 = before.length + 1 ∧
        region.ReadsFrom phrase text before above "P a:\n".toList (some 17) := by
  intro phrase text regions
  have rows : markerRows phrase text = [("P a:\n".toList, 1), ("P `b`\n".toList, 4)] := by
    decide +kernel
  have next : regions[1]?.map Region.start = some 17 := by decide +kernel
  have cut : lines text = ["##\t A\n".toList, "P a:\n".toList, "### B\n".toList, "x\n".toList,
      "P `b`\n".toList] := by decide +kernel
  have plain : PlainPhrase phrase := ⟨by decide, by decide, by decide⟩
  have marked : WellMarked phrase text := by
    refine ⟨?_, by rw [cut]; decide, by rw [cut]; decide, by rw [cut]; decide⟩
    intro line member starts
    rw [cut] at member
    have either : line = "P a:\n".toList ∨ line = "P `b`\n".toList := by
      revert line
      decide
    rcases either with rfl | rfl
    · exact ⟨['a'], .of_all [' '] [':'] rfl rfl (by decide) rfl (by decide) rfl⟩
    · exact ⟨['b'], .of_all " `".toList ['`'] rfl rfl (by decide) rfl (by decide) rfl⟩
  obtain ⟨count, each⟩ := findMarkers_rows plain marked
  refine ⟨rows, by rw [count, rows]; rfl, next, ?_⟩
  intro region here
  have first := each 0 region ("P a:\n".toList, 1) here (by rw [rows]; rfl)
  rwa [next] at first

end ApiSections.Document
