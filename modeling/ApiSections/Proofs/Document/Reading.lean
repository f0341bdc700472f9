import ApiSections.Proofs.Document.SourcePath
import ApiSections.Proofs.Text.Lines

namespace ApiSections.Document

open Text

/-- A marker at the start of a line: its source and how many characters it takes with its line
feed. -/
def reading? (phrase below : List Char) : Option (List Char × Nat) :=
  if phrase <+: below then
    let after := below.drop phrase.length
    let decoration := (after.takeWhile isQuoteOrSpace).length
    (sourcePath (after.drop decoration)).map fun (source, taken) =>
      (source, phrase.length + decoration + taken)
  else none

theorem reading?_of_not_prefix {phrase below : List Char} (other : ¬ phrase <+: below) :
    reading? phrase below = none := if_neg other

theorem marking?_of_isLine {above : List Char} (full : IsLine above) (phrase below : List Char) :
    marking? phrase (above ++ below) =
      (reading? phrase below).map fun (source, taken) => ⟨above ++ below.take taken, source⟩ := by
  simp only [marking?, takeLine_of_isLine full, full.getLast?, true_and,
    List.isPrefixOf_iff_prefix, reading?]
  split
  · cases found : sourcePath ((below.drop phrase.length).drop
      ((below.drop phrase.length).takeWhile isQuoteOrSpace).length) with
    | none => rfl
    | some pair =>
      simp only [Option.map_some, Nat.add_assoc, List.take_length_add_append]
  · rfl

theorem marking?_of_open {text : List Char} (free : '\n' ∉ text) (phrase : List Char) :
    marking? phrase text = none := by
  have last : text.getLast? ≠ some '\n' := fun last => free (List.mem_of_getLast? last)
  simp only [marking?, takeLine_of_open free, last, false_and, if_false]

/-- Blanks in front of a marking are given up from the last to the first, but as long as they stand
on one line this changes nothing. -/
theorem markingBehind?_of_isLine {above : List Char} (full : IsLine above) (phrase below : List Char)
    (blanks : Nat) (inside : blanks < above.length) :
    markingBehind? phrase (above ++ below) blanks =
      if blanks = 0 then none
      else (reading? phrase below).map fun (source, taken) =>
        (blanks, ⟨above.drop blanks ++ below.take taken, source⟩) := by
  induction blanks with
  | zero => rfl
  | succ blanks ih =>
    have left : above.drop (blanks + 1) ≠ [] := by
      simp only [ne_eq, List.drop_eq_nil_iff]
      omega
    have rest : IsLine (above.drop (blanks + 1)) := by
      rw [← List.take_append_drop (blanks + 1) above] at full
      exact full.of_append left
    have cut : (above ++ below).drop (blanks + 1) = above.drop (blanks + 1) ++ below :=
      List.drop_append_of_le_length (by omega)
    rw [markingBehind?, cut, marking?_of_isLine rest]
    cases found : reading? phrase below with
    | none =>
      rw [found] at ih
      simp only [Option.map_none]
      rw [ih (by omega)]
      split <;> rfl
    | some pair => simp

/-- A marker as it is read: the phrase, any spaces and back quotes, the source, which may run over
line feeds, and the marks that close it. -/
def Marked (phrase source marks marker : List Char) : Prop :=
  ∃ decoration, marker = phrase ++ decoration ++ source ++ marks ++ ['\n'] ∧
    (∀ c ∈ decoration, isQuoteOrSpace c = true) ∧
    source ≠ [] ∧ (∀ c ∈ source, endsPath c = false) ∧ ∀ c ∈ marks, endsPath c = true

theorem isQuoteOrSpace_of_not_endsPath {c : Char} (inside : endsPath c = false) :
    isQuoteOrSpace c = false := by
  simp only [endsPath, isQuoteOrSpace, Bool.or_eq_false_iff] at inside ⊢
  exact ⟨inside.2, inside.1.1⟩

theorem takeWhile_decoration {decoration source : List Char}
    (quotes : ∀ c ∈ decoration, isQuoteOrSpace c = true) (left : source ≠ [])
    (path : ∀ c ∈ source, endsPath c = false) (rest : List Char) :
    (decoration ++ (source ++ rest)).takeWhile isQuoteOrSpace = decoration := by
  rw [List.takeWhile_append_of_pos quotes]
  cases source with
  | nil => exact absurd rfl left
  | cons c source => simp [isQuoteOrSpace_of_not_endsPath (path c List.mem_cons_self)]

/-- What is read at the start of a line is a marker that marks close, or that the rest does not let
run on. -/
theorem reading?_eq_some_iff {phrase below source : List Char} {taken : Nat} :
    reading? phrase below = some (source, taken) ↔ ∃ marks marker rest, below = marker ++ rest ∧
      Marked phrase source marks marker ∧ (marks = [] → Parted rest) ∧ taken = marker.length := by
  constructor
  · intro found
    rw [reading?] at found
    split at found
    · rename_i starts
      obtain ⟨after, rfl⟩ := starts
      rw [List.drop_left] at found
      obtain ⟨⟨path, count⟩, read, same⟩ := Option.map_eq_some_iff.mp found
      obtain ⟨left, path, marks, rest, cut, ends, parted, rfl⟩ := sourcePath_eq_some_iff.mp read
      cases same
      have quotes : ∀ c ∈ after.takeWhile isQuoteOrSpace, isQuoteOrSpace c = true :=
        fun c member => List.mem_takeWhile_imp member
      have whole := List.prefix_iff_eq_append.mp (List.takeWhile_prefix isQuoteOrSpace (l := after))
      rw [cut] at whole
      generalize after.takeWhile isQuoteOrSpace = decoration at quotes whole
      refine ⟨marks, phrase ++ decoration ++ source ++ marks ++ ['\n'], rest, ?_,
        ⟨decoration, rfl, quotes, left, path, ends⟩, parted, ?_⟩
      · rw [← whole]
        simp
      · simp only [List.length_append, List.length_singleton, Nat.add_assoc]
    · cases found
  · rintro ⟨marks, marker, rest, rfl, ⟨decoration, rfl, quotes, left, path, ends⟩, parted, rfl⟩
    have starts : phrase <+: phrase ++ decoration ++ source ++ marks ++ ['\n'] ++ rest := by
      simp only [List.append_assoc]
      exact List.prefix_append _ _
    have after : (phrase ++ decoration ++ source ++ marks ++ ['\n'] ++ rest).drop phrase.length =
        decoration ++ (source ++ (marks ++ '\n' :: rest)) := by simp
    rw [reading?, if_pos starts, after]
    simp only [takeWhile_decoration quotes left path, List.drop_left]
    rw [← List.append_assoc, sourcePath_of_marked left path ends parted]
    simp only [Option.map_some, List.length_append, List.length_singleton, Nat.add_assoc]

theorem reading?_split {phrase below source : List Char} {taken : Nat}
    (found : reading? phrase below = some (source, taken)) :
    ∃ body rest, below = phrase ++ body ++ '\n' :: rest ∧
      taken = (phrase ++ body ++ ['\n']).length := by
  obtain ⟨marks, _, rest, rfl, ⟨decoration, rfl, _⟩, _, rfl⟩ := reading?_eq_some_iff.mp found
  exact ⟨decoration ++ source ++ marks, rest, by simp, by simp⟩

theorem markingBehind?_le {phrase text : List Char} {blanks count : Nat} {marking : Marking}
    (found : markingBehind? phrase text blanks = some (count, marking)) :
    0 < count ∧ count ≤ blanks ∧ marking? phrase (text.drop count) = some marking := by
  induction blanks with
  | zero => cases found
  | succ blanks ih =>
    rw [markingBehind?] at found
    split at found
    · rename_i here
      cases found
      exact ⟨by omega, Nat.le_refl _, here⟩
    · obtain ⟨positive, bound, here⟩ := ih found
      exact ⟨positive, by omega, here⟩

/-- The part of a heading in front of its text: hash marks and then blanks. -/
def HeadingLead (hashes : Option Nat) (lead : List Char) : Prop :=
  match hashes with
  | none => lead = []
  | some depth => 1 ≤ depth ∧ depth ≤ 6 ∧ ∃ blanks, blanks ≠ [] ∧
      (∀ c ∈ blanks, isBlank c = true) ∧ lead = List.replicate depth '#' ++ blanks

/-- How a match reads a text: the lead of a heading, the rest of the line above, the marker. -/
structure Match.Reads (phrase : List Char) (found : Match)
    (text lead above marker rest : List Char) : Prop where
  split : text = lead ++ (above ++ (marker ++ rest))
  heading : HeadingLead found.hashes lead
  lead_length : found.lead = lead.length
  above_line : IsLine above
  body : found.marking.text = above ++ marker
  marker_read : reading? phrase (marker ++ rest) = some (found.marking.source, marker.length)

theorem marking?_split {phrase text : List Char} {marking : Marking}
    (found : marking? phrase text = some marking) :
    ∃ above marker rest, text = above ++ (marker ++ rest) ∧ IsLine above ∧
      marking.text = above ++ marker ∧
      reading? phrase (marker ++ rest) = some (marking.source, marker.length) := by
  rcases line_or_open text with free | ⟨above, below, full, rfl⟩
  · rw [marking?_of_open free] at found
    cases found
  · rw [marking?_of_isLine full] at found
    obtain ⟨⟨source, taken⟩, read, rfl⟩ := Option.map_eq_some_iff.mp found
    obtain ⟨body, rest, rfl, rfl⟩ := reading?_split read
    have cut : phrase ++ body ++ '\n' :: rest = phrase ++ body ++ ['\n'] ++ rest := by simp
    rw [cut] at read ⊢
    refine ⟨above, phrase ++ body ++ ['\n'], rest, rfl, full, ?_, read⟩
    simp only [List.take_left]

theorem takeWhile_isHash (text : List Char) :
    text.takeWhile isHash = List.replicate (text.takeWhile isHash).length '#' := by
  apply List.eq_replicate_of_mem
  intro c member
  have hash := List.all_eq_true.mp List.all_takeWhile c member
  simpa [isHash] using hash

theorem matchAt?_reads {phrase text : List Char} {atLineStart : Bool} {found : Match}
    (here : matchAt? phrase atLineStart text = some found) :
    ∃ lead above marker rest, found.Reads phrase text lead above marker rest := by
  simp only [matchAt?] at here
  split at here
  · rename_i blanks marking headed
    cases here
    split at headed
    · rename_i guard
      simp only [Bool.and_eq_true, decide_eq_true_eq] at guard
      obtain ⟨positive, bound, marked⟩ := markingBehind?_le headed
      obtain ⟨above, marker, rest, cut, full, body, read⟩ := marking?_split marked
      have blank : ∀ c ∈ (text.dropWhile isHash).take blanks, isBlank c = true := by
        intro c member
        have inside : (text.dropWhile isHash).take blanks <+:
            (text.dropWhile isHash).takeWhile isBlank :=
          List.prefix_of_prefix_length_le (List.take_prefix _ _) (List.takeWhile_prefix _)
            (by simp only [List.length_take]; omega)
        exact List.all_eq_true.mp List.all_takeWhile c (inside.subset member)
      have count : ((text.dropWhile isHash).take blanks).length = blanks := by
        have := (List.takeWhile_prefix isBlank (l := text.dropWhile isHash)).length_le
        rw [List.length_take]
        omega
      refine ⟨text.takeWhile isHash ++ (text.dropWhile isHash).take blanks, above, marker, rest,
        ?_, ?_, ?_, full, body, read⟩
      · rw [← cut, List.append_assoc, List.take_append_drop, List.takeWhile_append_dropWhile]
      · refine ⟨guard.1.2, guard.2, (text.dropWhile isHash).take blanks, ?_, blank, ?_⟩
        · intro none
          rw [none] at count
          simp at count
          omega
        · rw [← takeWhile_isHash]
      · simp only [List.length_append, count]
    · cases headed
  · obtain ⟨marking, marked, rfl⟩ := Option.map_eq_some_iff.mp here
    obtain ⟨above, marker, rest, cut, full, body, read⟩ := marking?_split marked
    exact ⟨[], above, marker, rest, cut, rfl, rfl, full, body, read⟩

/-- A marker line that says where its source ends: the phrase, any spaces and back quotes, the
source, and at least one back quote, colon or space. -/
def ClosedMarker (phrase source line : List Char) : Prop :=
  ∃ decoration marks, line = phrase ++ decoration ++ source ++ marks ++ ['\n'] ∧
    (∀ c ∈ decoration, isQuoteOrSpace c = true) ∧
    source ≠ [] ∧ (∀ c ∈ source, endsPath c = false ∧ c ≠ '\n') ∧
    marks ≠ [] ∧ ∀ c ∈ marks, endsPath c = true

theorem ClosedMarker.of_all {phrase source line : List Char} (decoration marks : List Char)
    (split : line = phrase ++ decoration ++ source ++ marks ++ ['\n'])
    (quotes : decoration.all isQuoteOrSpace = true) (some_source : source ≠ [])
    (inside : source.all (fun c => !endsPath c && c != '\n') = true) (some_mark : marks ≠ [])
    (ends : marks.all endsPath = true) : ClosedMarker phrase source line := by
  have path : ∀ c ∈ source, endsPath c = false ∧ c ≠ '\n' := by
    intro c member
    simpa using List.all_eq_true.mp inside c member
  exact ⟨decoration, marks, split, List.all_eq_true.mp quotes, some_source, path, some_mark,
    List.all_eq_true.mp ends⟩

theorem ClosedMarker.starts {phrase source line : List Char}
    (closed : ClosedMarker phrase source line) : phrase <+: line := by
  obtain ⟨decoration, marks, rfl, _⟩ := closed
  simp only [List.append_assoc]
  exact List.prefix_append _ _

theorem ClosedMarker.isLine {phrase source line : List Char} (free : '\n' ∉ phrase)
    (closed : ClosedMarker phrase source line) : IsLine line := by
  obtain ⟨decoration, marks, rfl, quotes, _, path, _, ends⟩ := closed
  refine ⟨phrase ++ decoration ++ source ++ marks, ?_, rfl⟩
  intro member
  simp only [List.mem_append] at member
  rcases member with ((member | member) | member) | member
  · exact free member
  · exact absurd (quotes _ member) (by decide)
  · exact (path _ member).2 rfl
  · exact absurd (ends _ member) (by decide)

theorem ClosedMarker.marked {phrase source line : List Char}
    (closed : ClosedMarker phrase source line) :
    ∃ marks, Marked phrase source marks line ∧ marks ≠ [] := by
  obtain ⟨decoration, marks, same, quotes, left, path, some_mark, ends⟩ := closed
  exact ⟨marks, ⟨decoration, same, quotes, left, fun c member => (path c member).1, ends⟩, some_mark⟩

/-- A closed marker line is read as it stands, whatever follows it. -/
theorem ClosedMarker.reading {phrase source line : List Char}
    (closed : ClosedMarker phrase source line) (rest : List Char) :
    reading? phrase (line ++ rest) = some (source, line.length) := by
  obtain ⟨marks, marked, some_mark⟩ := closed.marked
  exact reading?_eq_some_iff.mpr
    ⟨marks, line, rest, rfl, marked, fun none => absurd none some_mark, rfl⟩

end ApiSections.Document
