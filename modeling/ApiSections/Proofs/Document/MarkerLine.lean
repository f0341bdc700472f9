import ApiSections.Proofs.Document.Completeness

/-!
When a marker is one line. A path that its line does not close is read on below it, up to the last
line feed in front of the next mark.
-/

namespace ApiSections.Document

open Text

/-- A marker line that ends with its source. -/
def OpenMarker (phrase source line : List Char) : Prop :=
  ∃ decoration, line = phrase ++ decoration ++ source ++ ['\n'] ∧
    (∀ c ∈ decoration, isQuoteOrSpace c = true) ∧
    source ≠ [] ∧ ∀ c ∈ source, endsPath c = false ∧ c ≠ '\n'

/-- The marker of a region has a mark behind its source. -/
def Region.Closed (region : Region) : Prop :=
  ∃ body mark, region.markerText = body ++ [mark, '\n'] ∧ endsPath mark = true

section Marked

variable {phrase source marks marker : List Char}

theorem OpenMarker.marked {line : List Char} (unclosed : OpenMarker phrase source line) :
    Marked phrase source [] line := by
  obtain ⟨decoration, same, quotes, left, path⟩ := unclosed
  exact ⟨decoration, by simpa using same, quotes, left, fun c member => (path c member).1, by simp⟩

theorem Marked.starts (marked : Marked phrase source marks marker) : phrase <+: marker := by
  obtain ⟨decoration, rfl, _⟩ := marked
  simp only [List.append_assoc]
  exact List.prefix_append _ _

theorem Marked.isLine_iff (one_line : '\n' ∉ phrase) (marked : Marked phrase source marks marker) :
    IsLine marker ↔ '\n' ∉ source := by
  obtain ⟨decoration, rfl, quotes, _, _, ends⟩ := marked
  constructor
  · rintro ⟨body, free, same⟩ feed
    have whole := (List.append_inj' same rfl).1
    exact free (by simp [← whole, feed])
  · intro free
    refine ⟨phrase ++ decoration ++ source ++ marks, ?_, rfl⟩
    simp only [List.mem_append, not_or]
    exact ⟨⟨⟨one_line, fun feed => absurd (quotes _ feed) (by decide)⟩, free⟩,
      fun feed => absurd (ends _ feed) (by decide)⟩

theorem Marked.closed_or_open (marked : Marked phrase source marks marker) (free : '\n' ∉ source) :
    ClosedMarker phrase source marker ∨ OpenMarker phrase source marker ∧ marks = [] := by
  obtain ⟨decoration, same, quotes, left, path, ends⟩ := marked
  have inside : ∀ c ∈ source, endsPath c = false ∧ c ≠ '\n' := by
    intro c member
    exact ⟨path c member, fun feed => free (feed ▸ member)⟩
  by_cases some_mark : marks = []
  · subst some_mark
    exact .inr ⟨⟨decoration, by simpa using same, quotes, left, inside⟩, rfl⟩
  · exact .inl ⟨decoration, marks, same, quotes, left, inside, some_mark, ends⟩

theorem Marked.closed_iff (marked : Marked phrase source marks marker) {region : Region}
    {above : List Char} (body : region.markerText = above ++ marker) :
    region.Closed ↔ marks ≠ [] := by
  obtain ⟨decoration, rfl, _, left, path, ends⟩ := marked
  constructor
  · -- Without marks the character in front of the line feed is the last of the source.
    rintro ⟨front, mark, split, closes⟩ none
    subst none
    obtain ⟨last, c, rfl⟩ := List.eq_nil_or_concat source |>.resolve_left left
    have same : (above ++ phrase ++ decoration ++ last) ++ [c, '\n'] = front ++ [mark, '\n'] := by
      rw [← split, body]
      simp
    have same_mark : c = mark := by simpa using (List.append_inj' same rfl).2
    have inside := path c (by simp)
    rw [same_mark, closes] at inside
    cases inside
  · intro some_mark
    obtain ⟨front, mark, rfl⟩ := List.eq_nil_or_concat marks |>.resolve_left some_mark
    exact ⟨above ++ phrase ++ decoration ++ source ++ front, mark, by simp [body],
      ends mark (by simp)⟩

/-- Above an empty line, where a pass leaves it, a marker is read as before only if it has marks:
a path without them runs on over the empty line. -/
theorem Marked.reading_again_iff (marked : Marked phrase source marks marker) (more : List Char) :
    (∃ taken, reading? phrase (marker ++ '\n' :: more) = some (source, taken)) ↔ marks ≠ [] := by
  constructor
  · rintro ⟨taken, read⟩ none
    obtain ⟨marks', marker', rest', split, marked', parted, _⟩ := reading?_eq_some_iff.mp read
    obtain ⟨decoration, rfl, quotes, left, path, _⟩ := marked
    obtain ⟨decoration', rfl, quotes', _, _, ends'⟩ := marked'
    -- Both readings start at one place: the decoration is the same, and then so is what follows it.
    subst none
    simp only [List.append_assoc, List.nil_append, List.append_cancel_left_eq] at split
    have same := congrArg (List.takeWhile isQuoteOrSpace) split
    rw [takeWhile_decoration quotes left path, takeWhile_decoration quotes' left path] at same
    subst same
    simp only [List.append_cancel_left_eq, List.singleton_append] at split
    cases marks' with
    | nil =>
      have behind : '\n' :: more = rest' := by simpa using split
      exact not_parted_newline more (behind ▸ parted rfl)
    | cons mark marks' =>
      obtain ⟨rfl, _⟩ := List.cons.inj split
      exact ne_newline_of_endsPath (ends' _ List.mem_cons_self) rfl
  · intro some_mark
    exact ⟨marker.length, reading?_eq_some_iff.mpr
      ⟨marks, marker, '\n' :: more, rfl, marked, fun none => absurd none some_mark, rfl⟩⟩

end Marked

section Pass

variable {phrase text : List Char} {region : Region}

theorem Region.MarkerAt.reading {place : Nat} {line : List Char}
    (member : region ∈ findMarkers text phrase) (marks : region.MarkerAt phrase text place line) :
    reading? phrase (text.drop place) = some (region.source, line.length) := by
  obtain ⟨found, _, same, body, named, _⟩ := findMarkers_hit member
  obtain ⟨_, above, match_eq, full, split, rfl⟩ := marks
  cases same.symm.trans match_eq
  obtain ⟨lead, above', marker, rest, reads⟩ := matchAt?_reads same
  obtain ⟨rfl, rfl⟩ := reads.above_line.unique full (reads.body.symm.trans (body.symm.trans split))
  have below : text.drop (region.start + found.lead + above'.length) = marker ++ rest := by
    rw [← List.drop_drop, ← List.drop_drop, reads.split, reads.lead_length, List.drop_left,
      List.drop_left]
  rw [below, reads.marker_read, named]

/-- After a pass the marker of every region stands above an empty line. -/
theorem spliceAll_keeps_marker {above marker : List Char} (member : region ∈ findMarkers text phrase)
    (body : region.markerText = above ++ marker) {ρ ε σ : Type}
    {render : Region → ReaderT ρ (ExceptT ε (StateM σ)) (List Char)} {env : ρ} {state last : σ}
    {spliced : Spliced} (ran : Returns (spliceAll text phrase render) env state spliced last) :
    ∃ place more, spliced.text.drop place = marker ++ '\n' :: more := by
  rw [spliceAll_eq, returns_map] at ran
  obtain ⟨fragments, rendered, rfl⟩ := ran
  have count : fragments.reverse.length = (findMarkers text phrase).length := by
    rw [List.length_reverse, length_of_returns_mapM rendered, List.length_reverse]
  obtain ⟨first, fragment, second, same⟩ := replacement_infix_assemble count member
  obtain ⟨heading, split⟩ : ∃ heading, region.replacement fragment =
      heading ++ (region.markerText ++ '\n' :: fragment) := ⟨_, List.append_assoc _ _ _⟩
  refine ⟨(first ++ heading ++ above).length, fragment ++ second, ?_⟩
  have whole : first ++ (region.replacement fragment ++ second) =
      (first ++ heading ++ above) ++ (marker ++ '\n' :: (fragment ++ second)) := by
    rw [split, body]
    simp only [List.append_assoc, List.cons_append]
  rw [same, whole, List.drop_left]

end Pass

/-- The marker of a region is one line, and its source one path, exactly if the line below the line
above closes the path or the text behind that line does not let it run on. Where the next pass reads
the marker again, it reads the same source exactly if the marker is closed. -/
theorem findMarkers_oneLine_iff {phrase text : List Char} {region : Region}
    (one_line : '\n' ∉ phrase) (member : region ∈ findMarkers text phrase) :
    ∃ lead above marker rest, text.drop region.start = lead ++ (above ++ (marker ++ rest)) ∧
      HeadingLead region.hashes lead ∧ IsLine above ∧ region.markerText = above ++ marker ∧
      phrase <+: marker ∧
      ('\n' ∉ region.source ↔ IsLine marker) ∧
      ('\n' ∉ region.source ↔ ∃ source line back, marker ++ rest = line ++ back ∧
        (ClosedMarker phrase source line ∨ OpenMarker phrase source line ∧ Parted back)) ∧
      ∀ {ρ ε σ : Type} (render : Region → ReaderT ρ (ExceptT ε (StateM σ)) (List Char))
        (env : ρ) (state last : σ) (spliced : Spliced),
        Returns (spliceAll text phrase render) env state spliced last →
        ∃ place more, spliced.text.drop place = marker ++ '\n' :: more ∧
          ∀ again ∈ findMarkers spliced.text phrase, ∀ line,
            again.MarkerAt phrase spliced.text place line →
              (again.source = region.source ↔ region.Closed) := by
  obtain ⟨found, _, here, body, named, hashes⟩ := findMarkers_hit member
  obtain ⟨lead, above, marker, rest, reads⟩ := matchAt?_reads here
  have read := reads.marker_read
  rw [← named] at read
  obtain ⟨marks, marker', rest', split, marked, parted, size⟩ := reading?_eq_some_iff.mp read
  obtain ⟨rfl, rfl⟩ := List.append_inj split size
  rw [reads.body] at body
  refine ⟨lead, above, marker, rest, reads.split, hashes ▸ reads.heading, reads.above_line, body,
    marked.starts, (marked.isLine_iff one_line).symm, ?_, ?_⟩
  · constructor
    · intro free
      refine ⟨region.source, marker, rest, rfl, ?_⟩
      exact (marked.closed_or_open free).imp_right fun unclosed => ⟨unclosed.1, parted unclosed.2⟩
    · -- What stands there is read, and reading has one outcome.
      rintro ⟨source, line, back, same, closed | ⟨unclosed, stops⟩⟩
      · rw [same, closed.reading] at read
        obtain ⟨rfl, _⟩ := Prod.mk.inj (Option.some.inj read)
        obtain ⟨_, _, _, _, _, path, _⟩ := closed
        exact fun feed => (path _ feed).2 rfl
      · have again := reading?_eq_some_iff.mpr
          ⟨[], line, back, same, unclosed.marked, fun _ => stops, rfl⟩
        obtain ⟨rfl, _⟩ := Prod.mk.inj (Option.some.inj (again.symm.trans read))
        obtain ⟨_, _, _, _, path⟩ := unclosed
        exact fun feed => (path _ feed).2 rfl
  · intro ρ ε σ render env state last spliced ran
    obtain ⟨place, more, stands⟩ := spliceAll_keeps_marker member body ran
    refine ⟨place, more, stands, ?_⟩
    intro again among line marks
    have next := Region.MarkerAt.reading among marks
    rw [stands] at next
    rw [marked.closed_iff body, ← marked.reading_again_iff more, next]
    simp

/-- The mark on the next line keeps this source on its own line, but no pass after the first reads it
again. -/
theorem findMarkers_oneLine_open :
    let phrase := "P".toList
    let text := "x\nP a\nb c\n".toList
    ∃ region ∈ findMarkers text phrase, region.source = "a".toList ∧
      ∀ spliced : Spliced, Returns (spliceAll text phrase fun _ =>
          (pure "F\n".toList : ReaderT Unit (ExceptT Unit (StateM Unit)) (List Char)))
          () () spliced () →
        ∃ place more, spliced.text.drop place = "P a\n".toList ++ '\n' :: more ∧
          ∀ again ∈ findMarkers spliced.text phrase, ∀ line,
            again.MarkerAt phrase spliced.text place line → again.source ≠ region.source := by
  intro phrase text
  have regions : findMarkers text phrase = [⟨0, 10, 2, none, "x\nP a\n".toList, ['a']⟩] := by
    decide +kernel
  have member : ⟨0, 10, 2, none, "x\nP a\n".toList, ['a']⟩ ∈ findMarkers text phrase := by
    simp [regions]
  refine ⟨_, member, rfl, ?_⟩
  obtain ⟨lead, above, marker, rest, _, _, full, body, _, _, _, next⟩ :=
    findMarkers_oneLine_iff (by decide) member
  obtain ⟨rfl, rfl⟩ : above = "x\n".toList ∧ marker = "P a\n".toList := by
    have split : above ++ marker = "x\n".toList ++ "P a\n".toList := by
      rw [← body]
      decide
    exact full.unique ⟨['x'], by decide⟩ split
  intro spliced ran
  obtain ⟨place, more, stands, reads⟩ := next _ _ _ _ spliced ran
  refine ⟨place, more, stands, ?_⟩
  intro again among line marks same
  obtain ⟨front, mark, split, closes⟩ := (reads again among line marks).mp same
  have last : mark = 'a' := by
    have same := congrArg (fun text => text.dropLast.getLast?) split
    simpa using same.symm
  rw [last] at closes
  exact absurd closes (by decide)

/-- The source of an undecorated marker is another one in the second pass, and it has a line feed. -/
theorem undecorated_source_changes :
    let phrase := "P".toList
    let text := "x\nP a\n".toList
    let pass := fun text => (spliceAll text phrase fun region =>
      (pure ("### ".toList ++ region.source ++ "\n\n".toList) : Id (List Char))).run
    OpenMarker phrase "a".toList "P a\n".toList ∧
    (pass text).regions.map Region.source = ["a".toList] ∧
    (pass (pass text).text).regions.map Region.source = ["a\n".toList] := by
  intro phrase text pass
  refine ⟨⟨[' '], rfl, List.forall_mem_singleton.mpr (by decide), by decide,
    List.forall_mem_singleton.mpr (by decide)⟩, ?_, ?_⟩
  · decide +kernel
  · decide +kernel

end ApiSections.Document
