import ApiSections.Proofs.Document.Filling

/-!
Splicing twice. A fragment that keeps to its region is found there again, so a second pass over a
well-marked document changes nothing.
-/

namespace ApiSections.Document

open Text

/-- No line of a fragment outside fenced code is a heading of its region's level or above. -/
def Contained (level : Nat) (fragment : List Char) : Prop :=
  ∀ first line second, lines fragment = first ++ line :: second → isFenceLine line = false →
    first.countP isFenceLine % 2 = 0 → ∀ depth, headingLevel? line = some depth → level < depth

/-- Every fence that a fragment opens is closed in it. -/
def FencesPaired (fragment : List Char) : Prop := (lines fragment).countP isFenceLine % 2 = 0

/-- A fragment of whole lines that brings no markers and no empty headings, closes its fences and
has only deeper headings than its region. -/
structure Settled (phrase : List Char) (level : Nat) (fragment : List Char) : Prop where
  ended : EndsLine fragment
  plain : Plain phrase fragment
  paired : FencesPaired fragment
  contained : Contained level fragment

theorem contained_iff {level : Nat} {fragment : List Char} :
    Contained level fragment ↔ ∀ row ∈ (lines fragment).zipIdx, isFenceLine row.1 = false →
      ((lines fragment).take row.2).countP isFenceLine % 2 = 0 →
        ∀ depth ∈ headingLevel? row.1, level < depth := by
  constructor
  · rintro contained ⟨line, place⟩ member other even depth heading
    obtain ⟨inside, here⟩ := List.getElem?_eq_some_iff.mp (List.mem_zipIdx_iff_getElem?.mp member)
    simp only at inside here
    apply contained _ line ((lines fragment).drop (place + 1)) _ other even depth heading
    rw [← here, List.getElem_cons_drop, List.take_append_drop]
  · intro rows first line second split other even depth heading
    have member : (line, first.length) ∈ (lines fragment).zipIdx := by
      rw [List.mem_zipIdx_iff_getElem?, split]
      simp
    refine rows _ member other ?_ depth heading
    rwa [split, List.take_left]

instance (level : Nat) (fragment : List Char) : Decidable (Contained level fragment) :=
  decidable_of_iff _ contained_iff.symm

instance (fragment : List Char) : Decidable (FencesPaired fragment) :=
  inferInstanceAs (Decidable (_ = _))

instance (phrase passage : List Char) : Decidable (Plain phrase passage) :=
  inferInstanceAs (Decidable (∀ line ∈ lines passage, _))

instance (fragment : List Char) : Decidable (EndsLine fragment) :=
  inferInstanceAs (Decidable (_ ∨ _))

instance (phrase : List Char) (level : Nat) (fragment : List Char) :
    Decidable (Settled phrase level fragment) :=
  decidable_of_iff (EndsLine fragment ∧ Plain phrase fragment ∧ FencesPaired fragment ∧
      Contained level fragment)
    ⟨fun ⟨ended, plain, paired, contained⟩ => ⟨ended, plain, paired, contained⟩,
      fun settled => ⟨settled.ended, settled.plain, settled.paired, settled.contained⟩⟩

/-- Rows that do not stop a scan are passed over; whether it is inside fenced code afterwards depends
on how many fences they have. -/
theorem boundaryAfter_contained (level : Int) (fenced : Bool) (rows more : List (List Char))
    (contained : ∀ first line second, rows = first ++ line :: second →
      ¬ Stops level fenced first line) :
    boundaryAfter level fenced (rows ++ more) =
      rows.flatten.length + boundaryAfter level
        (decide ((rows.countP isFenceLine + fenced.toNat) % 2 = 1)) more := by
  induction rows generalizing fenced with
  | nil => cases fenced <;> simp
  | cons row rows ih =>
    have later := ih (fenced ^^ isFenceLine row) fun first line second split stops =>
      contained (row :: first) line second (by rw [split, List.cons_append]) (stops_cons.mpr stops)
    have parity : (rows.countP isFenceLine + (fenced ^^ isFenceLine row).toNat) % 2 = 1 ↔
        ((row :: rows).countP isFenceLine + fenced.toNat) % 2 = 1 := by
      rw [List.countP_cons]
      cases fenced <;> cases isFenceLine row <;> grind
    rw [List.cons_append, boundaryAfter_of_passes (contained [] row rows rfl), later,
      decide_eq_decide.mpr parity, List.flatten_cons, List.length_append, Nat.add_assoc]

theorem Contained.rows {level : Nat} {fragment : List Char} (contained : Contained level fragment)
    (first : List (List Char)) (line : List Char) (second : List (List Char))
    (split : ['\n'] :: lines fragment = first ++ line :: second) :
    ¬ Stops level false first line := by
  intro stops
  cases first with
  | nil =>
    obtain ⟨rfl, _⟩ := List.cons.inj split
    cases stops.ends
  | cons row first =>
    obtain ⟨rfl, behind⟩ := List.cons.inj split
    obtain ⟨other, even, ends⟩ := stops_cons.mp stops
    obtain ⟨depth, heads, shallow⟩ := endsRegion_iff.mp ends
    have heading := headingLevel?_eq_some_iff.mpr heads
    have deeper := contained first line second behind other even depth heading
    omega

theorem boundaryAfter_filled {level : Nat} {fragment : List Char} (ended : EndsLine fragment)
    (contained : Contained level fragment) (rest : List Char) :
    boundaryAfter level false (lines ('\n' :: (fragment ++ rest))) =
      ('\n' :: fragment).length + boundaryAfter level
        (decide ((lines fragment).countP isFenceLine % 2 = 1)) (lines rest) := by
  have rows : lines ('\n' :: (fragment ++ rest)) = (['\n'] :: lines fragment) ++ lines rest := by
    rw [lines_newline, lines_append ended, List.cons_append]
  have size : (['\n'] :: lines fragment).flatten.length = ('\n' :: fragment).length := by simp
  have fences : (['\n'] :: lines fragment).countP isFenceLine + false.toNat =
      (lines fragment).countP isFenceLine := by
    rw [List.countP_cons, show isFenceLine ['\n'] = false by decide]
    rfl
  rw [rows, boundaryAfter_contained level false _ _ contained.rows, size, fences]

theorem Marker.tail_cases (marker : Marker) (below : List Char) :
    marker.tail below = [] ∨ ∃ row more, lines (marker.tail below) = row :: more ∧
      isFenceLine row = false ∧ endsRegion marker.level row = true := by
  obtain ⟨_, _, stops⟩ := marker.tail_lines below
  cases listed : lines (marker.tail below) with
  | nil =>
    left
    rw [← flatten_lines (marker.tail below), listed]
    rfl
  | cons row more => exact .inr ⟨row, more, rfl, stops row (by rw [listed]; rfl)⟩

/-- A contained fragment ends where the region is read to end, provided that its fences are paired
or nothing follows it. -/
theorem Marker.tail_filled {marker : Marker} {fragment below : List Char}
    (ended : EndsLine fragment) (contained : Contained marker.level fragment)
    (paired : marker.tail below ≠ [] → FencesPaired fragment) :
    marker.tail (marker.filled fragment below) = marker.tail below := by
  have boundary := boundaryAfter_filled ended contained (marker.tail below)
  have whole : '\n' :: (fragment ++ marker.tail below) =
    ('\n' :: fragment) ++ marker.tail below := rfl
  rcases marker.tail_cases below with none | ⟨row, more, listed, other, ends⟩
  · rw [none, lines_nil, boundaryAfter, Nat.add_zero] at boundary
    rw [filled, none, tail, boundary, List.append_nil, List.drop_length]
  · have some_tail : marker.tail below ≠ [] := by
      intro none
      rw [none, lines_nil] at listed
      cases listed
    have outside : decide ((lines fragment).countP isFenceLine % 2 = 1) = false := by
      have even : (lines fragment).countP isFenceLine % 2 = 0 := paired some_tail
      simp [even]
    have here : boundaryAfter marker.level false (row :: more) = 0 := by
      rw [boundaryAfter, other, ends]
      rfl
    rw [outside, listed, here, Nat.add_zero] at boundary
    rw [filled, tail, boundary, whole, List.drop_left]

theorem Layout.holds_of_settled {phrase : List Char} (layout : Layout)
    {fragments : List (List Char)} (count : fragments.length = layout.markers.length)
    (settled : ∀ pair ∈ layout.markers.zip fragments, Settled phrase pair.1.level pair.2) :
    layout.Holds fragments := by
  induction layout generalizing fragments with
  | final passage => exact True.intro
  | marked passage marker rest ih =>
    cases fragments with
    | nil => simp [markers] at count
    | cons fragment fragments =>
      have here : Settled phrase marker.level fragment :=
        settled (marker, fragment) (by simp [markers])
      refine ⟨Marker.tail_filled here.ended here.contained fun _ => here.paired, ?_⟩
      apply ih (by simpa [markers] using count)
      intro pair member
      exact settled pair (by rw [markers, List.zip_cons_cons]; exact List.mem_cons_of_mem _ member)

theorem assemble_layout {phrase : List Char} (plain : PlainPhrase phrase) {layout : Layout}
    (proper : layout.Proper phrase) {fragments : List (List Char)}
    (count : fragments.length = layout.markers.length) :
    assemble layout.text 0 ((findMarkers layout.text phrase).zip fragments) =
      (layout.fill id fragments).text := by
  have whole : layout.text.drop 0 = layout.text := rfl
  rw [findMarkers_layout plain proper]
  exact Layout.assemble_regions whole (Nat.zero_le layout.front.length) count

/-- The source of a region and the level of its marker. -/
def Region.address (region : Region) : List Char × Nat := (region.source, region.baseLevel)

def Marker.address (marker : Marker) : List Char × Nat := (marker.source, marker.level)

theorem Marker.address_normalized (marker : Marker) :
    marker.normalized.address = marker.address :=
  congrArg (Prod.mk marker.source) marker.level_normalized

theorem Layout.addresses_regions (layout : Layout) (offset : Nat) :
    (layout.regions offset).map Region.address = layout.markers.map Marker.address :=
  layout.regions_map offset _ _ fun _ _ _ => rfl

theorem Layout.addresses_fill (layout : Layout) (cut : List Char → List Char)
    (fragments : List (List Char)) :
    (layout.fill cut fragments).markers.map Marker.address = layout.markers.map Marker.address := by
  rw [markers_fill, List.map_map]
  exact List.map_congr_left fun marker _ => marker.address_normalized

/-- With a callback that looks only at source and level, splicing fills the layout of a text. -/
theorem spliceAll_layout {m : Type → Type} [Monad m] [LawfulMonad m] {phrase : List Char}
    (plain : PlainPhrase phrase) {layout : Layout} (proper : layout.Proper phrase)
    (fragment : List Char × Nat → List Char) :
    spliceAll layout.text phrase
        (fun region => (pure (fragment region.address) : m (List Char))) =
      pure ⟨(layout.fill id ((layout.markers.map Marker.address).map fragment)).text,
        layout.regions 0⟩ := by
  have asked : (layout.regions 0).map (fun region => fragment region.address) =
      (layout.markers.map Marker.address).map fragment := by
    rw [← layout.addresses_regions 0, List.map_map]
    rfl
  have count : ((layout.markers.map Marker.address).map fragment).length =
      layout.markers.length := by simp
  have assembled := assemble_layout plain proper count
  rw [findMarkers_layout plain proper] at assembled
  rw [spliceAll_pure, findMarkers_layout plain proper, asked, assembled]

/-- Splicing the spliced text of a well-marked document with the same settled fragments gives that
text again, with the same sources and levels. -/
theorem spliceAll_spliced {m : Type → Type} [Monad m] [LawfulMonad m] {phrase text : List Char}
    (plain : PlainPhrase phrase) (marked : WellMarked phrase text)
    (fragment : List Char × Nat → List Char)
    (settled : ∀ region ∈ findMarkers text phrase,
      Settled phrase region.baseLevel (fragment region.address)) :
    let render : Region → m (List Char) := fun region => pure (fragment region.address)
    ∃ first second : Spliced,
      spliceAll text phrase render = pure first ∧
      spliceAll first.text phrase render = pure second ∧
      second.text = first.text ∧
      second.regions.map Region.address = first.regions.map Region.address := by
  obtain ⟨layout, proper, rfl⟩ := marked.exists_layout plain
  have settled_at : ∀ address ∈ layout.markers.map Marker.address,
      Settled phrase address.2 (fragment address) := by
    intro address member
    rw [← layout.addresses_regions 0, ← findMarkers_layout plain proper] at member
    obtain ⟨region, among, rfl⟩ := List.mem_map.mp member
    exact settled region among
  have fragments_plain : ∀ part ∈ (layout.markers.map Marker.address).map fragment,
      EndsLine part ∧ Plain phrase part := by
    intro part member
    obtain ⟨address, among, rfl⟩ := List.mem_map.mp member
    exact ⟨(settled_at address among).ended, (settled_at address among).plain⟩
  have holds : layout.Holds ((layout.markers.map Marker.address).map fragment) := by
    apply Layout.holds_of_settled layout (by simp)
    intro pair member
    rw [List.map_map, List.zip_map_right, List.zip_eq_zipWith, List.zipWith_self,
      List.map_map] at member
    obtain ⟨marker, among, rfl⟩ := List.mem_map.mp member
    exact settled_at marker.address (List.mem_map_of_mem among)
  have filled : (layout.fill id ((layout.markers.map Marker.address).map fragment)).Proper phrase :=
    proper.fill plain proper.front_plain (fun ended => ended) fragments_plain
  have again := spliceAll_layout (m := m) plain filled fragment
  rw [Layout.addresses_fill, Layout.fill_fill proper id id holds] at again
  refine ⟨_, _, spliceAll_layout plain proper fragment, again, rfl, ?_⟩
  rw [Layout.addresses_regions, Layout.addresses_regions, Layout.addresses_fill]

/-- Headings of a fragment inside its fenced code do not end the region, and the blanks of a heading
are normalized once. -/
theorem spliceAll_spliced_fenced :
    let phrase := "Source".toList
    let text :=
      "# Guide\n##\t Store\nSource `store`:\nold\n### Detail\n# Next\nSource net:\n~~~".toList
    let fragment : List Char × Nat → List Char := fun address =>
      List.replicate (address.2 + 1) '#' ++ ' ' :: address.1 ++ "\n```\n# x\n```\n".toList
    let render : Region → Id (List Char) := fun region => pure (fragment region.address)
    (findMarkers text phrase).map Region.address = [("store".toList, 2), ("net".toList, 1)] ∧
    ∃ first second : Spliced,
      spliceAll text phrase render = pure first ∧
      spliceAll first.text phrase render = pure second ∧
      second.text = first.text ∧
      second.regions.map Region.address = first.regions.map Region.address := by
  intro phrase text fragment render
  have found : (findMarkers text phrase).map Region.address =
      [("store".toList, 2), ("net".toList, 1)] := by decide +kernel
  have cut : lines text = ["# Guide\n".toList, "##\t Store\n".toList, "Source `store`:\n".toList,
      "old\n".toList, "### Detail\n".toList, "# Next\n".toList, "Source net:\n".toList,
      "~~~".toList] := by decide +kernel
  have plain : PlainPhrase phrase := ⟨by decide, by decide, by decide⟩
  have marked : WellMarked phrase text := by
    refine ⟨?_, by rw [cut]; decide, by rw [cut]; decide, by rw [cut]; decide⟩
    intro line member starts
    rw [cut] at member
    have either : line = "Source `store`:\n".toList ∨ line = "Source net:\n".toList := by
      revert line
      decide
    rcases either with rfl | rfl
    · exact ⟨"store".toList, .of_all " `".toList "`:".toList rfl rfl (by decide) rfl (by decide) rfl⟩
    · exact ⟨"net".toList, .of_all " ".toList ":".toList rfl rfl (by decide) rfl (by decide) rfl⟩
  have settled : ∀ address ∈ [("store".toList, 2), ("net".toList, 1)],
      Settled phrase address.2 (fragment address) := by decide +kernel
  refine ⟨found, spliceAll_spliced (m := Id) plain marked fragment ?_⟩
  intro region member
  apply settled region.address
  rw [← found]
  exact List.mem_map_of_mem member

end ApiSections.Document
