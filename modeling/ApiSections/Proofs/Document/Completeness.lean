import ApiSections.Proofs.Document.Splicing
import ApiSections.Proofs.Workspace.Returns
import Mathlib.Logic.ExistsUnique

/-!
Which marker lines are found. A match takes the line above its marker along, so a closed marker line
is found unless the line above it was taken by another match.
-/

namespace ApiSections.Document

open Text

/-- The match that a region was found with. -/
def Region.match? (phrase text : List Char) (region : Region) : Option Match :=
  matchAt? phrase true (text.drop region.start)

/-- The match of a region takes the character at an offset. -/
def Region.Takes (phrase text : List Char) (place : Nat) (region : Region) : Prop :=
  ∃ found, region.match? phrase text = some found ∧
    region.start ≤ place ∧ place < region.start + found.length

/-- The marker line of a region stands at an offset, below the heading or line above it. -/
def Region.MarkerAt (phrase text : List Char) (place : Nat) (line : List Char) (region : Region) :
    Prop :=
  ∃ found above, region.match? phrase text = some found ∧ IsLine above ∧
    region.markerText = above ++ line ∧ region.start + found.lead + above.length = place

section Hits

theorem mem_regionsOf {text : List Char} {hits : List (Nat × Match)} {region : Region}
    (member : region ∈ regionsOf text hits) :
    ∃ found, (region.start, found) ∈ hits ∧ region.markerText = found.marking.text ∧
      region.source = found.marking.source ∧ region.hashes = found.hashes := by
  induction hits with
  | nil => simp [regionsOf] at member
  | cons hit hits ih =>
    rw [regionsOf] at member
    rcases List.mem_cons.mp member with rfl | member
    · exact ⟨hit.2, List.mem_cons_self, rfl, rfl, rfl⟩
    · obtain ⟨found, among, same⟩ := ih member
      exact ⟨found, List.mem_cons_of_mem _ among, same⟩

theorem exists_region {text : List Char} {hits : List (Nat × Match)} {start : Nat} {found : Match}
    (member : (start, found) ∈ hits) : ∃ region ∈ regionsOf text hits, region.start = start := by
  induction hits with
  | nil => cases member
  | cons hit hits ih =>
    rw [regionsOf]
    rcases List.mem_cons.mp member with rfl | member
    · exact ⟨_, List.mem_cons_self, rfl⟩
    · obtain ⟨region, among, same⟩ := ih member
      exact ⟨region, List.mem_cons_of_mem _ among, same⟩

end Hits

namespace Scan

variable {phrase text : List Char} {offset : Nat} {hits : List (Nat × Match)}

theorem hit_split (scan : Scan phrase offset text hits) {start : Nat} {found : Match}
    (member : (start, found) ∈ hits) :
    ∃ before rest, text = before ++ rest ∧ EndsLine before ∧ start = offset + before.length ∧
      matchAt? phrase true rest = some found := by
  induction scan with
  | done _ => cases member
  | @miss offset line rest hits full _ _ ih =>
    obtain ⟨before, behind, rfl, ended, place, here⟩ := ih member
    refine ⟨line ++ before, behind, by rw [List.append_assoc], full.endsLine.append ended, ?_, here⟩
    rw [List.length_append]
    omega
  | @hit offset text lead above marker rest other hits matched reads _ ih =>
    rcases List.mem_cons.mp member with same | member
    · cases same
      exact ⟨[], text, rfl, .inl rfl, rfl, matched⟩
    · obtain ⟨before, behind, rfl, ended, place, here⟩ := ih member
      refine ⟨lead ++ (above ++ marker) ++ before, behind, ?_, ?_, ?_, here⟩
      · rw [reads.whole]
        simp only [List.append_assoc]
      · exact reads.taken_ends.append ended
      · rw [List.length_append, ← reads.length_eq]
        omega

/-- Two hits do not share a character. -/
theorem hit_unique (scan : Scan phrase offset text hits) {place start₁ start₂ : Nat}
    {found₁ found₂ : Match} (member₁ : (start₁, found₁) ∈ hits) (member₂ : (start₂, found₂) ∈ hits)
    (after₁ : start₁ ≤ place) (before₁ : place < start₁ + found₁.length)
    (after₂ : start₂ ≤ place) (before₂ : place < start₂ + found₂.length) : start₁ = start₂ := by
  induction scan with
  | done _ => cases member₁
  | miss _ _ _ ih => exact ih member₁ member₂
  | @hit offset text lead above marker rest other hits matched reads later ih =>
    rcases List.mem_cons.mp member₁ with same₁ | later₁
    · rcases List.mem_cons.mp member₂ with same₂ | later₂
      · cases same₁
        cases same₂
        rfl
      · cases same₁
        obtain ⟨_, _, _, _, start, _⟩ := later.hit_split later₂
        omega
    · rcases List.mem_cons.mp member₂ with same₂ | later₂
      · cases same₂
        obtain ⟨_, _, _, _, start, _⟩ := later.hit_split later₁
        omega
      · exact ih later₁ later₂

/-- The line above a closed marker line is always taken by some match. -/
theorem taken (scan : Scan phrase offset text hits)
    {before above line after source : List Char} (ended : EndsLine before) (full : IsLine above)
    (closed : ClosedMarker phrase source line) (split : text = before ++ (above ++ (line ++ after))) :
    ∃ start found, (start, found) ∈ hits ∧ start ≤ offset + before.length ∧
      offset + before.length < start + found.length := by
  induction scan generalizing before with
  | @done offset text free =>
    obtain ⟨body, _, same⟩ := full
    rw [split, same] at free
    simp at free
  | @miss offset row rest hits row_full missed _ ih =>
    rcases line_or_open before with free | ⟨first, more, first_full, rfl⟩
    · rw [ended.of_open free, List.nil_append] at split
      obtain ⟨rfl, rfl⟩ := row_full.unique full split
      have unread := reading?_of_marking? row_full (marking?_of_matchAt? missed)
      rw [closed.reading] at unread
      cases unread
    · rw [List.append_assoc] at split
      obtain ⟨rfl, rfl⟩ := row_full.unique first_full split
      obtain ⟨start, found, member, from_start, to_end⟩ := ih ended.of_append rfl
      rw [List.length_append]
      exact ⟨start, found, member, by omega, by omega⟩
  | @hit offset text lead above' marker rest found hits matched reads _ ih =>
    by_cases inside : before.length < found.length
    · exact ⟨offset, found, List.mem_cons_self, by omega, by omega⟩
    · -- The match ends in front of the line, which is left to the rest of the scan.
      have whole := reads.whole.symm.trans split
      have count := reads.length_eq
      obtain ⟨more, rfl, rfl⟩ : ∃ more, before = lead ++ (above' ++ marker) ++ more ∧
          rest = more ++ (above ++ (line ++ after)) := by
        rcases List.append_eq_append_iff.mp whole with ⟨more, same, behind⟩ | ⟨more, same, behind⟩
        · exact ⟨more, same, behind⟩
        · have size : (lead ++ (above' ++ marker)).length = before.length + more.length := by
            rw [same, List.length_append]
          have none : more = [] := List.eq_nil_of_length_eq_zero (by omega)
          rw [none, List.append_nil] at same
          rw [none, List.nil_append] at behind
          exact ⟨[], by rw [same, List.append_nil], behind.symm⟩
      obtain ⟨start, other, member, from_start, to_end⟩ := ih ended.of_append rfl
      rw [List.length_append, ← count]
      exact ⟨start, other, List.mem_cons_of_mem _ member, by omega, by omega⟩

theorem hit_le (scan : Scan phrase offset text hits) {start : Nat} {found : Match}
    (member : (start, found) ∈ hits) {before above rest : List Char} (full : IsLine above)
    (split : text = before ++ (above ++ rest))
    (earlier : start < offset + before.length + above.length) : start ≤ offset + before.length := by
  obtain ⟨front, behind, same, ended, place, _⟩ := scan.hit_split member
  rw [same] at split
  rcases List.append_eq_append_iff.mp split with ⟨more, whole, _⟩ | ⟨more, rfl, cut⟩
  · have size : before.length = front.length + more.length := by rw [whole, List.length_append]
    omega
  · -- The match starts at a line, and the line above has no line feed before its end.
    rw [List.length_append] at place
    have starts : more <+: above := by
      apply List.prefix_of_prefix_length_le ⟨behind, cut.symm⟩ (List.prefix_append above rest)
      omega
    rcases full.eq_of_prefix starts ended.of_append with rfl | rfl
    · rw [List.length_nil] at place
      omega
    · omega

end Scan

theorem Spaced.start_injective {limit offset : Nat} {regions : List Region}
    (spaced : Spaced limit offset regions) {first second : Region} (member₁ : first ∈ regions)
    (member₂ : second ∈ regions) (same : first.start = second.start) : first = second := by
  induction regions generalizing offset with
  | nil => cases member₁
  | cons region regions ih =>
    obtain ⟨_, some, rest⟩ := spaced
    rcases List.mem_cons.mp member₁ with rfl | later₁
    · rcases List.mem_cons.mp member₂ with rfl | later₂
      · rfl
      · have := rest.bounds second later₂
        omega
    · rcases List.mem_cons.mp member₂ with rfl | later₂
      · have := rest.bounds first later₁
        omega
      · exact ih rest later₁ later₂

theorem replacement_infix_assemble {text : List Char} {offset : Nat} {regions : List Region}
    {fragments : List (List Char)} (count : fragments.length = regions.length) {region : Region}
    (member : region ∈ regions) :
    ∃ first fragment second, assemble text offset (regions.zip fragments) =
      first ++ (region.replacement fragment ++ second) := by
  induction regions generalizing offset fragments with
  | nil => cases member
  | cons other regions ih =>
    cases fragments with
    | nil => simp at count
    | cons fragment fragments =>
      rw [List.zip_cons_cons, assemble]
      rcases List.mem_cons.mp member with rfl | member
      · exact ⟨_, fragment, _, List.append_assoc _ _ _⟩
      · obtain ⟨first, inner, second, same⟩ := ih (by simpa using count) member
        rw [same, ← List.append_assoc]
        exact ⟨_, inner, second, rfl⟩

/-- The marker line of a region is kept as a line of its own. -/
theorem mem_lines_replacement {region : Region} {above line : List Char} (full : IsLine above)
    (line_full : IsLine line) (split : region.markerText = above ++ line)
    (first fragment second : List Char) :
    line ∈ lines (first ++ (region.replacement fragment ++ second)) := by
  obtain ⟨heading, same⟩ : ∃ heading, region.replacement fragment =
      heading ++ above ++ (line ++ '\n' :: fragment) := by
    cases hashes : region.hashes with
    | none => exact ⟨[], by simp [Region.replacement, hashes, split]⟩
    | some depth =>
      exact ⟨List.replicate depth '#' ++ [' '], by simp [Region.replacement, hashes, split]⟩
  have whole : first ++ (region.replacement fragment ++ second) =
      first ++ heading ++ above ++ (line ++ ('\n' :: fragment ++ second)) := by
    rw [same]
    simp only [List.append_assoc]
  rw [whole, lines_append (EndsLine.of_getLast? _ full.getLast?), lines_of_isLine line_full]
  exact List.mem_append_right _ List.mem_cons_self

section Found

variable {phrase text : List Char} {region : Region}

theorem findMarkers_hit (member : region ∈ findMarkers text phrase) :
    ∃ found, (region.start, found) ∈ matchesFrom phrase 0 0 true text ∧
      region.match? phrase text = some found ∧ region.markerText = found.marking.text ∧
      region.source = found.marking.source ∧ region.hashes = found.hashes := by
  obtain ⟨found, hit, same⟩ := mem_regionsOf member
  obtain ⟨before, rest, split, _, start, here⟩ := (scan_matchesFrom phrase text 0).hit_split hit
  refine ⟨found, hit, ?_, same⟩
  rw [Nat.zero_add] at start
  rw [Region.match?, start, split, List.drop_left, here]

/-- No two regions take the same character. -/
theorem Region.Takes.unique {other : Region} {place : Nat}
    (member : region ∈ findMarkers text phrase) (among : other ∈ findMarkers text phrase)
    (takes : region.Takes phrase text place) (shares : other.Takes phrase text place) :
    region = other := by
  obtain ⟨found, hit, same, _⟩ := findMarkers_hit member
  obtain ⟨found', hit', same', _⟩ := findMarkers_hit among
  obtain ⟨_, match_eq, after, before⟩ := takes
  obtain ⟨_, match_eq', after', before'⟩ := shares
  cases same.symm.trans match_eq
  cases same'.symm.trans match_eq'
  apply (findMarkers_spaced text phrase).start_injective member among
  exact (scan_matchesFrom phrase text 0).hit_unique hit hit' after before after' before'

theorem Region.MarkerAt.source_eq {place : Nat} {line source : List Char}
    (member : region ∈ findMarkers text phrase) (marks : region.MarkerAt phrase text place line)
    (closed : ClosedMarker phrase source line) : region.source = source := by
  obtain ⟨found, _, same, body, named, _⟩ := findMarkers_hit member
  obtain ⟨_, above, match_eq, full, split, _⟩ := marks
  cases same.symm.trans match_eq
  obtain ⟨lead, above', marker, rest, reads⟩ := matchAt?_reads same
  obtain ⟨rfl, rfl⟩ := reads.above_line.unique full (reads.body.symm.trans (body.symm.trans split))
  have read := reads.marker_read
  rw [closed.reading] at read
  cases read
  exact named

theorem Region.MarkerAt.takes {before above rest line : List Char}
    (member : region ∈ findMarkers (before ++ (above ++ rest)) phrase) (full : IsLine above)
    (marks : region.MarkerAt phrase (before ++ (above ++ rest)) (before.length + above.length) line) :
    region.Takes phrase (before ++ (above ++ rest)) before.length := by
  obtain ⟨found, hit, same, body, _⟩ := findMarkers_hit member
  obtain ⟨_, above', match_eq, full', split, place⟩ := marks
  cases same.symm.trans match_eq
  have positive := full'.length_pos
  have some_above := full.length_pos
  have size : found.length = found.lead + (above'.length + line.length) := by
    rw [Match.length, ← body, split, List.length_append]
  have early := (scan_matchesFrom phrase (before ++ (above ++ rest)) 0).hit_le hit full rfl (by omega)
  exact ⟨found, same, by omega, by omega⟩

theorem exists_region_taking {before above line after source : List Char} (ended : EndsLine before)
    (full : IsLine above) (closed : ClosedMarker phrase source line) :
    ∃ region ∈ findMarkers (before ++ (above ++ (line ++ after))) phrase,
      region.Takes phrase (before ++ (above ++ (line ++ after))) before.length := by
  have scan := scan_matchesFrom phrase (before ++ (above ++ (line ++ after))) 0
  obtain ⟨start, found, hit, from_start, to_end⟩ := scan.taken ended full closed rfl
  obtain ⟨region, member, rfl⟩ := exists_region hit
  obtain ⟨front, rest, split, _, place, here⟩ := scan.hit_split hit
  refine ⟨region, member, found, ?_, by omega, by omega⟩
  rw [Nat.zero_add] at place
  rw [Region.match?, place, split, List.drop_left, here]

end Found

/-- A closed marker line below another line is found, and once only, exactly if no match of another
marker takes the line above it. A marker line that is found is kept by every callback. -/
theorem closedMarker_found_iff {phrase before above line after source : List Char}
    (one_line : '\n' ∉ phrase) (ended : EndsLine before) (full : IsLine above)
    (closed : ClosedMarker phrase source line) :
    let text := before ++ (above ++ (line ++ after))
    let place := before.length + above.length
    ((∃! region, region ∈ findMarkers text phrase ∧ region.MarkerAt phrase text place line ∧
        region.source = source) ↔
      ∀ region ∈ findMarkers text phrase, region.Takes phrase text before.length →
        region.MarkerAt phrase text place line) ∧
    ((∃ region ∈ findMarkers text phrase, region.MarkerAt phrase text place line) →
      ∀ {ρ ε σ : Type} (render : Region → ReaderT ρ (ExceptT ε (StateM σ)) (List Char))
        (env : ρ) (state last : σ) (spliced : Spliced),
        Returns (spliceAll text phrase render) env state spliced last → line ∈ lines spliced.text) := by
  intro text place
  constructor
  · constructor
    · rintro ⟨region, ⟨member, marks, _⟩, _⟩ other among takes
      have same := Region.Takes.unique member among (Region.MarkerAt.takes member full marks) takes
      rwa [← same]
    · intro untaken
      obtain ⟨region, member, takes⟩ := exists_region_taking ended full closed
      have marks := untaken region member takes
      refine ⟨region, ⟨member, marks, Region.MarkerAt.source_eq member marks closed⟩, ?_⟩
      rintro other ⟨among, others, _⟩
      exact Region.Takes.unique among member (Region.MarkerAt.takes among full others) takes
  · rintro ⟨region, member, found, above', _, full', split, _⟩ ρ ε σ render env state last spliced ran
    rw [spliceAll_eq, returns_map] at ran
    obtain ⟨fragments, rendered, rfl⟩ := ran
    have count : fragments.reverse.length = (findMarkers text phrase).length := by
      rw [List.length_reverse, length_of_returns_mapM rendered, List.length_reverse]
    obtain ⟨first, fragment, second, same⟩ := replacement_infix_assemble count member
    rw [same]
    exact mem_lines_replacement full' (closed.isLine one_line) split first fragment second

/-- A marker whose heading stands directly below another marker is found. -/
theorem closedMarker_found_below_heading :
    let phrase := "P".toList
    let text := "x\nP a:\n# T\nP b:\n".toList
    ClosedMarker phrase "b".toList "P b:\n".toList ∧
    ∃! region, region ∈ findMarkers text phrase ∧
      region.MarkerAt phrase text 11 "P b:\n".toList ∧ region.source = "b".toList := by
  intro phrase text
  have closed : ClosedMarker phrase "b".toList "P b:\n".toList :=
    .of_all [' '] [':'] rfl rfl (by decide) rfl (by decide) rfl
  have ended : EndsLine "x\nP a:\n".toList := .inr (by decide)
  have full : IsLine "# T\n".toList := ⟨"# T".toList, by decide⟩
  have first : matchAt? phrase true text = some ⟨none, 0, ⟨"x\nP a:\n".toList, ['a']⟩⟩ := by
    decide +kernel
  have second : matchAt? phrase true (text.drop 7) =
      some ⟨some 1, 2, ⟨"T\nP b:\n".toList, ['b']⟩⟩ := by decide +kernel
  refine ⟨closed, (closedMarker_found_iff (by decide) ended full closed).1.mpr ?_⟩
  change ∀ region ∈ findMarkers text phrase, region.Takes phrase text 7 →
    region.MarkerAt phrase text 11 "P b:\n".toList
  have regions : findMarkers text phrase =
      [⟨0, 7, 2, none, "x\nP a:\n".toList, ['a']⟩,
        ⟨7, 16, 1, some 1, "T\nP b:\n".toList, ['b']⟩] := by decide +kernel
  rw [regions]
  intro region member takes
  simp only [List.mem_cons, List.not_mem_nil, or_false] at member
  rcases member with rfl | rfl
  · obtain ⟨found, here, _, inside⟩ := takes
    cases first.symm.trans here
    exact absurd inside (by decide)
  · exact ⟨_, "T\n".toList, second, ⟨['T'], by decide⟩, by decide⟩

/-- Of two marker lines without a line between them the second is not found, and it is lost. -/
theorem adjacent_marker_lost :
    let phrase := "P".toList
    let text := "x\nP a:\nP b:\n".toList
    text = "x\n".toList ++ ("P a:\n".toList ++ ("P b:\n".toList ++ [])) ∧
    ClosedMarker phrase "b".toList "P b:\n".toList ∧
    (findMarkers text phrase).map Region.source = ["a".toList] ∧
    ∃ spliced : Spliced, spliceAll text phrase (fun _ => (pure [] : Id (List Char))) = spliced ∧
      "P b:\n".toList ∉ lines spliced.text := by
  intro phrase text
  have closed : ClosedMarker phrase "b".toList "P b:\n".toList :=
    .of_all [' '] [':'] rfl rfl (by decide) rfl (by decide) rfl
  refine ⟨by decide, closed, by decide +kernel, _, rfl, ?_⟩
  decide +kernel

end ApiSections.Document
