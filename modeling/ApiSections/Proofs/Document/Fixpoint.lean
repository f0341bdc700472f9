import ApiSections.Proofs.Document.Idempotence

/-!
When a second pass over a spliced text leaves it alone: exactly if every fragment keeps to its region,
which can be told from the fragments.
-/

namespace ApiSections.Document

open Text

theorem contained_of_boundaryAfter {level : Nat} {fragment rest : List Char}
    (ended : EndsLine fragment)
    (boundary : boundaryAfter level false (lines ('\n' :: (fragment ++ rest))) =
      ('\n' :: fragment).length) : Contained level fragment := by
  intro first line second split other even depth heading
  apply Nat.lt_of_not_le
  intro shallow
  have ends : endsRegion level line = true :=
    endsRegion_iff.mpr ⟨depth, headingLevel?_eq_some_iff.mp heading, by omega⟩
  have some_line := List.length_pos_iff.mpr (ne_nil_of_endsRegion ends)
  have here : Stops level false (['\n'] :: first) line := stops_cons.mpr ⟨other, even, ends⟩
  have stops := boundaryAfter_le_of_stops here (second ++ lines rest)
  have rows : lines ('\n' :: (fragment ++ rest)) =
      (['\n'] :: first) ++ line :: (second ++ lines rest) := by
    rw [lines_newline, lines_append ended, split]
    simp
  have size : fragment.length = first.flatten.length + (line.length + second.flatten.length) := by
    rw [← flatten_lines fragment, split]
    simp
  rw [← rows, boundary] at stops
  simp only [List.length_cons, List.flatten_cons, List.length_append, List.length_nil] at stops
  omega

/-- A filled region ends with its fragment exactly if the fragment has no heading that ends it and
leaves no fence open in front of a text. -/
theorem Marker.tail_filled_iff {marker : Marker} {fragment below : List Char}
    (ended : EndsLine fragment) :
    marker.tail (marker.filled fragment below) = marker.tail below ↔
      Contained marker.level fragment ∧ (marker.tail below ≠ [] → FencesPaired fragment) := by
  constructor
  · intro same
    have boundary : boundaryAfter marker.level false
        (lines ('\n' :: (fragment ++ marker.tail below))) = ('\n' :: fragment).length := by
      have bound := boundaryAfter_le marker.level false
        (lines ('\n' :: (fragment ++ marker.tail below)))
      have size := congrArg List.length same
      rw [flatten_lines] at bound
      rw [tail, List.length_drop, filled] at size
      simp only [List.length_cons, List.length_append] at size bound ⊢
      omega
    have contained := contained_of_boundaryAfter ended boundary
    refine ⟨contained, fun some_tail => ?_⟩
    have passed := boundaryAfter_filled ended contained (marker.tail below)
    rw [boundary] at passed
    rcases marker.tail_cases below with none | ⟨row, more, listed, other, ends⟩
    · exact absurd none some_tail
    · -- Behind an open fence the first line of the tail would be passed over.
      rcases Nat.mod_two_eq_zero_or_one ((lines fragment).countP isFenceLine) with even | odd
      · exact even
      · have some_row := List.length_pos_iff.mpr (ne_nil_of_endsRegion ends)
        have inside : boundaryAfter marker.level (decide (1 = 1)) (row :: more) =
            row.length + boundaryAfter marker.level true more := by
          rw [boundaryAfter, other]
          rfl
        rw [odd, listed, inside] at passed
        omega
  · rintro ⟨contained, paired⟩
    exact tail_filled ended contained paired

/-- Where the first line that starts with the phrase stands tells a passage from the marker below. -/
theorem Plain.unique {phrase : List Char} (plain : PlainPhrase phrase) {marker : Marker}
    (proper : marker.Proper phrase) {first second : List Char} (first_plain : Plain phrase first)
    (first_ends : EndsLine first) (second_plain : Plain phrase second)
    (second_ends : EndsLine second) {rest others : List Char}
    (same : first ++ (marker.text ++ rest) = second ++ (marker.text ++ others)) :
    first = second ∧ rest = others := by
  have unmarked : ∀ row : List Char, ¬ phrase <+: row → (!phrase.isPrefixOf row) = true := by
    intro row other
    cases starts : phrase.isPrefixOf row with
    | false => rfl
    | true => exact absurd (List.isPrefixOf_iff_prefix.mp starts) other
  have starts : phrase.isPrefixOf marker.line = true := by
    simpa using proper.closed.starts
  have cut : ∀ passage tail : List Char, Plain phrase passage → EndsLine passage →
      (lines (passage ++ (marker.text ++ tail))).takeWhile (!phrase.isPrefixOf ·) =
        lines passage ++ [marker.above] := by
    intro passage tail passage_plain ended
    have rows : lines (passage ++ (marker.text ++ tail)) =
        (lines passage ++ [marker.above]) ++ marker.line :: lines tail := by
      rw [proper.lines_append plain ended]
      simp
    have before : ∀ row ∈ lines passage ++ [marker.above], (!phrase.isPrefixOf row) = true := by
      intro row member
      rcases List.mem_append.mp member with member | member
      · exact unmarked row (passage_plain row member).1
      · rw [List.mem_singleton.mp member]
        exact unmarked marker.above proper.unmarked
    rw [rows, List.takeWhile_append_of_pos before, List.takeWhile_cons, starts]
    simp
  have equal := cut first rest first_plain first_ends
  rw [same, cut second others second_plain second_ends] at equal
  have rows : lines second = lines first := List.append_cancel_right equal
  have passages : first = second := by
    rw [← flatten_lines first, ← rows, flatten_lines]
  subst passages
  exact ⟨rfl, List.append_cancel_left (List.append_cancel_left same)⟩

/-- If filling a layout again gives the text that filling it once gives, the fragments held. -/
theorem Layout.holds_of_text_eq {phrase : List Char} (plain : PlainPhrase phrase) {layout : Layout}
    (proper : layout.Proper phrase) (cut again : List Char → List Char)
    {fragments others : List (List Char)}
    (fragments_plain : ∀ fragment ∈ fragments, EndsLine fragment ∧ Plain phrase fragment)
    (same : ((layout.fill cut fragments).fill again others).text =
      (layout.fill (again ∘ cut) others).text) : layout.Holds fragments := by
  induction layout generalizing cut again fragments others with
  | final passage => exact True.intro
  | marked passage marker rest ih =>
    obtain ⟨_, _, marks, behind⟩ := proper
    have first := headD_plain fragments_plain
    have later : ∀ fragment ∈ fragments.tail, EndsLine fragment ∧ Plain phrase fragment :=
      fun fragment member => fragments_plain fragment (List.mem_of_mem_tail member)
    have core : ((rest.fill (marker.filled (fragments.headD [])) fragments.tail).fill marker.tail
        others.tail).text = (rest.fill marker.tail others.tail).text := by
      have joined : ∀ below, marker.filled (others.headD []) below =
          '\n' :: others.headD [] ++ marker.tail below := fun _ => rfl
      simp only [fill, text, Marker.normalized_normalized marks, Function.comp_apply,
        Marker.filled_normalized] at same
      have inner := List.append_cancel_left (List.append_cancel_left same)
      rw [funext joined, text_fill_append, text_fill_append] at inner
      exact List.append_cancel_left inner
    -- Up to the next marker both texts agree, so this fragment kept to its region.
    have here : marker.tail (marker.filled (fragments.headD []) rest.front) =
        marker.tail rest.front := by
      cases rest with
      | final last => exact core
      | marked passage' marker' rest' =>
        obtain ⟨plain', ended', marks', _⟩ := behind
        simp only [fill, text, Marker.normalized_normalized marks'] at core
        have feed : EndsLine ['\n'] := .inr rfl
        have plain_tail := marker.tail_plain plain'
        have ends_tail := marker.tail_ends ended'
        apply (Plain.unique plain (marks'.normalized plain) _ _ plain_tail ends_tail core).1
        · exact marker.tail_plain (Plain.filled plain first.1 first.2 plain_tail)
        · exact marker.tail_ends (feed.append (first.1.append ends_tail))
    have composed : rest.fill marker.tail others.tail =
        rest.fill (marker.tail ∘ marker.filled (fragments.headD [])) others.tail := by
      apply fill_congr
      exact here.symm
    have again_here := core.trans (congrArg Layout.text composed)
    exact ⟨here, ih behind (marker.filled (fragments.headD [])) marker.tail later again_here⟩

/-- The fragments of regions keep to them: none has a heading that ends its region, and fences are
closed where the text goes on behind it, be it up to the next region or up to `limit`. -/
def Kept (limit : Nat) : List Region → List (List Char) → Prop
  | [], _ => True
  | region :: rest, fragments =>
    Contained region.baseLevel (fragments.headD []) ∧
    (region.stop < (rest.head?.map Region.start).getD limit → FencesPaired (fragments.headD [])) ∧
    Kept limit rest fragments.tail

instance decidableKept (limit : Nat) : ∀ regions fragments, Decidable (Kept limit regions fragments)
  | [], _ => .isTrue True.intro
  | _ :: rest, fragments =>
    have := decidableKept limit rest fragments.tail
    inferInstanceAs (Decidable (_ ∧ _ ∧ _))

theorem Layout.holds_iff_kept (layout : Layout) (offset : Nat) {fragments : List (List Char)}
    (ended : ∀ fragment ∈ fragments, EndsLine fragment) :
    layout.Holds fragments ↔
      Kept (offset + layout.text.length) (layout.regions offset) fragments := by
  induction layout generalizing offset fragments with
  | final passage => exact Iff.rfl
  | marked passage marker rest ih =>
    have first : EndsLine (fragments.headD []) := headD_of_forall (.inl rfl) ended
    have later := ih (offset + passage.length + marker.text.length)
      (fun fragment member => ended fragment (List.mem_of_mem_tail member))
    have limit : offset + (Layout.marked passage marker rest).text.length =
        offset + passage.length + marker.text.length + rest.text.length := by
      simp only [text, List.length_append]
      omega
    have bound := boundaryAfter_le marker.level false (lines rest.front)
    rw [flatten_lines] at bound
    have followed : marker.tail rest.front ≠ [] ↔
        (marker.region (offset + passage.length) rest.front).stop <
          ((rest.regions (offset + passage.length + marker.text.length)).head?.map
            Region.start).getD (offset + passage.length + marker.text.length + rest.text.length) := by
      rw [Ne, Marker.tail, List.drop_eq_nil_iff]
      cases rest with
      | final last =>
        simp only [Marker.region, regions, front, text, List.head?_nil, Option.map_none,
          Option.getD_none] at bound ⊢
        omega
      | marked passage' marker' rest' =>
        simp only [Marker.region, regions, front, text, List.head?_cons, Option.map_some,
          Option.getD_some] at bound ⊢
        omega
    rw [Holds, Marker.tail_filled_iff first, limit, regions, Kept, later, followed, and_assoc]
    rfl

theorem free_normalized {line : List Char} (free : '\r' ∉ line) : '\r' ∉ normalized line := by
  cases level : headingLevel? line with
  | none => rwa [normalized_of_none level]
  | some depth =>
    have inside : title line <:+ line := by
      simp only [title, level]
      exact (List.dropWhile_suffix _).trans (List.dropWhile_suffix _)
    rw [normalized_of_level level]
    intro member
    rcases List.mem_append.mp member with hashes | rest
    · exact absurd (List.eq_of_mem_replicate hashes) (by decide)
    · rcases List.mem_cons.mp rest with space | text
      · exact absurd space (by decide)
      · exact free (inside.subset text)

theorem Marker.free_text_normalized {marker : Marker} (free : '\r' ∉ marker.text) :
    '\r' ∉ marker.normalized.text := by
  rw [text, List.mem_append, not_or] at free ⊢
  exact ⟨free_normalized free.1, free.2⟩

theorem Marker.unifyNewlines_filled (marker : Marker) {fragment below : List Char}
    (ended : EndsLine fragment) (free : '\r' ∉ below) :
    unifyNewlines (marker.filled fragment below) =
      marker.filled (unifyNewlines fragment) below := by
  have free_tail : '\r' ∉ marker.tail below := fun member => free (List.mem_of_mem_drop member)
  have feed : ['\n'].getLast? ≠ some '\r' := by decide
  have whole := unifyNewlines_append feed (fragment ++ marker.tail below)
  rw [unifyNewlines_append ended.last_ne, unifyNewlines_of_free free_tail] at whole
  exact whole

theorem Marker.last_filled_ne {marker : Marker} {fragment below : List Char}
    (ended : EndsLine fragment) (free : '\r' ∉ below) :
    (marker.filled fragment below).getLast? ≠ some '\r' := by
  have feed : EndsLine ['\n'] := .inr rfl
  intro last
  by_cases none : marker.tail below = []
  · rw [filled, none, List.append_nil] at last
    exact EndsLine.last_ne (feed.append ended) last
  · rw [filled, ← List.cons_append, List.getLast?_append,
      List.getLast?_eq_some_getLast none, Option.some_or] at last
    rw [← List.getLast?_eq_some_getLast none] at last
    exact free (List.mem_of_mem_drop (List.mem_of_getLast? last))

theorem Layout.free_front {layout : Layout} (free : '\r' ∉ layout.text) : '\r' ∉ layout.front := by
  intro member
  apply free
  cases layout with
  | final passage => exact member
  | marked passage marker rest => exact List.mem_append_left _ member

theorem Layout.unifyNewlines_fill {layout : Layout} (free : '\r' ∉ layout.text)
    {cut other : List Char → List Char} (front_last : (cut layout.front).getLast? ≠ some '\r')
    (front_same : unifyNewlines (cut layout.front) = other layout.front)
    {fragments : List (List Char)} (ended : ∀ fragment ∈ fragments, EndsLine fragment) :
    unifyNewlines (layout.fill cut fragments).text =
      (layout.fill other (fragments.map unifyNewlines)).text := by
  induction layout generalizing cut other fragments with
  | final passage => exact front_same
  | marked passage marker rest ih =>
    rw [text, List.mem_append, List.mem_append, not_or, not_or] at free
    obtain ⟨_, free_marker, free_rest⟩ := free
    have free_front := Layout.free_front free_rest
    have first : EndsLine (fragments.headD []) := headD_of_forall (.inl rfl) ended
    have head : (fragments.map unifyNewlines).headD [] = unifyNewlines (fragments.headD []) := by
      cases fragments <;> rfl
    have later := ih free_rest (Marker.last_filled_ne first free_front)
      (marker.unifyNewlines_filled first free_front)
      (fun fragment member => ended fragment (List.mem_of_mem_tail member))
    have plain_marker := Marker.free_text_normalized free_marker
    simp only [front] at front_last front_same
    rw [fill, text, unifyNewlines_append front_last, front_same,
      unifyNewlines_append (last_ne_of_free plain_marker), unifyNewlines_of_free plain_marker, later,
      fill, text, head, List.map_tail]

/-- Read with unified line endings, a filled layout is a layout again, and filling it with the same
fragments changes nothing exactly if these keep to their regions. -/
theorem Layout.Proper.refill {phrase : List Char} (plain : PlainPhrase phrase) {layout : Layout}
    (proper : layout.Proper phrase) (free : '\r' ∉ layout.text) {fragments : List (List Char)}
    (ended : ∀ fragment ∈ fragments, EndsLine fragment)
    (unmarked : ∀ fragment ∈ fragments, Plain phrase (unifyNewlines fragment)) :
    ∃ again : Layout, again.Proper phrase ∧
      again.text = unifyNewlines (layout.fill id fragments).text ∧
      again.markers.map Marker.address = layout.markers.map Marker.address ∧
      ((again.fill id fragments).text = (layout.fill id fragments).text ↔
        Kept layout.text.length (layout.regions 0) (fragments.map unifyNewlines)) := by
  have unified_plain : ∀ fragment ∈ fragments.map unifyNewlines,
      EndsLine fragment ∧ Plain phrase fragment := by
    intro fragment member
    obtain ⟨own, among, rfl⟩ := List.mem_map.mp member
    exact ⟨(ended own among).unifyNewlines, unmarked own among⟩
  have free_front := Layout.free_front free
  refine ⟨layout.fill id (fragments.map unifyNewlines), ?_, ?_, ?_, ?_⟩
  · exact proper.fill plain proper.front_plain (fun ended => ended) unified_plain
  · exact (Layout.unifyNewlines_fill free (last_ne_of_free free_front)
      (unifyNewlines_of_free free_front) ended).symm
  · exact layout.addresses_fill id _
  · have kept := layout.holds_iff_kept 0 fun fragment member => (unified_plain fragment member).1
    rw [Nat.zero_add] at kept
    rw [← kept]
    constructor
    · exact Layout.holds_of_text_eq plain proper id id unified_plain
    · intro holds
      rw [Layout.fill_fill proper id id holds]
      rfl

end ApiSections.Document
