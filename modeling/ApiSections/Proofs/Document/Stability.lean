import ApiSections.Proofs.Document.Atomicity
import ApiSections.Proofs.Document.Fixpoint
import ApiSections.Proofs.Fragment.Ended
import ApiSections.Proofs.Text.Utf8
import ApiSections.Proofs.Workspace.Undisturbed

/-!
Updating a document twice. The sources are the same the second time, so the same fragments are
rendered; the document stays as it is exactly if these keep to their regions.
-/

namespace ApiSections.Document

open Text Work

/-- A fragment depends only on the source of its region and on its level. -/
theorem regionFragment_congr {first second : Region} (same : first.address = second.address) :
    regionFragment first = regionFragment second := by
  have source : first.source = second.source := congrArg Prod.fst same
  have level : first.baseLevel = second.baseLevel := congrArg Prod.snd same
  unfold regionFragment progressLine
  rw [source, level]

theorem mapM_regionFragment_congr {first second : List Region}
    (same : first.map Region.address = second.map Region.address) :
    first.mapM regionFragment = second.mapM regionFragment := by
  induction first generalizing second with
  | nil => rw [List.map_eq_nil_iff.mp same.symm]
  | cons region first ih =>
    obtain ⟨other, rest, rfl, here, behind⟩ := List.map_eq_cons_iff.mp same.symm
    rw [List.mapM_cons, List.mapM_cons, regionFragment_congr here, ih behind.symm]

theorem endsLine_of_regionFragment {region : Region} {workspace : Workspace} {pass last : Pass}
    {fragment : List Char} (ran : Returns (regionFragment region) workspace pass fragment last) :
    EndsLine fragment := by
  simp only [regionFragment, returns_bind, returns_pure] at ran
  obtain ⟨_, _, _, text, _, renders, rfl, _⟩ := ran
  exact Fragment.ended_render renders

theorem undisturbed_regionFragment {place : List String} {bytes : List UInt8}
    {first second : Workspace} (beside : Beside place bytes first second) (region : Region) :
    Undisturbed place first second (regionFragment region) := by
  apply Undisturbed.bind (.announce _)
  intro _
  exact .bind (beside.render _ _) fun _ => .pure _

/-- The fragments that regions get, in order; the last one is asked for first. -/
def Rendered (workspace : Workspace) (regions : List Region) (fragments : List (List Char))
    (last : Pass) : Prop :=
  Returns (regions.reverse.mapM regionFragment) workspace .empty fragments.reverse last

namespace Rendered

variable {workspace : Workspace} {regions : List Region} {fragments : List (List Char)}
  {last : Pass} (rendered : Rendered workspace regions fragments last)

include rendered

theorem count : fragments.length = regions.length := by
  simpa using length_of_returns_mapM rendered

theorem ended : ∀ fragment ∈ fragments, EndsLine fragment := by
  intro fragment member
  exact forall_of_returns_mapM (fun _ _ _ _ => endsLine_of_regionFragment) rendered fragment
    (List.mem_reverse.mpr member)

/-- With another text in the document, regions with the same sources get the same fragments. -/
theorem beside {place : List String} {bytes : List UInt8} {second : Workspace}
    (beside : Beside place bytes workspace second) (unread : Unread workspace place last)
    {others : List Region} (same : others.map Region.address = regions.map Region.address) :
    Rendered second others fragments last := by
  have reversed : others.reverse.map Region.address = regions.reverse.map Region.address := by
    rw [List.map_reverse, List.map_reverse, same]
  have steps := Undisturbed.mapM fun region (_ : region ∈ regions.reverse) =>
    undisturbed_regionFragment beside region
  rw [Rendered, mapM_regionFragment_congr reversed]
  exact (steps .empty fragments.reverse last rendered).2 unread

end Rendered

theorem returns_spliceAll {workspace : Workspace} {text phrase : List Char} {spliced : Spliced}
    {last : Pass} :
    Returns (spliceAll text phrase regionFragment) workspace .empty spliced last ↔
      ∃ fragments, Rendered workspace (findMarkers text phrase) fragments last ∧
        spliced = ⟨assemble text 0 ((findMarkers text phrase).zip fragments),
          findMarkers text phrase⟩ := by
  rw [spliceAll_eq, returns_map]
  constructor
  · rintro ⟨fragments, ran, rfl⟩
    exact ⟨fragments.reverse, by rwa [Rendered, List.reverse_reverse], rfl⟩
  · rintro ⟨fragments, ran, rfl⟩
    exact ⟨fragments.reverse, ran, by rw [List.reverse_reverse]⟩

theorem rendered_of_returns {workspace : Workspace} {path : Path} {phrase : String}
    {place : List String} {bytes : List UInt8} {text : List Char} {spliced : Spliced} {last : Pass}
    (located : workspace.tree.locate? path = some place)
    (there : workspace.tree.bytesAt? place = some bytes) (decodes : decodeStrict? bytes = some text)
    (ran : Returns (regenerate path phrase) workspace .empty spliced last) :
    spliced.regions = findMarkers (unifyNewlines text) phrase.toList ∧
    ∃ fragments between,
      Rendered workspace (findMarkers (unifyNewlines text) phrase.toList) fragments between ∧
      (spliced.regions.isEmpty = false → last = between) := by
  obtain ⟨_, between, reads, splices, same⟩ := returns_regenerate ran
  obtain ⟨_, _, _, _, located', there', decodes', rfl⟩ := returns_readText reads
  cases located.symm.trans located'
  cases there.symm.trans there'
  cases decodes.symm.trans decodes'
  obtain ⟨fragments, rendered, rfl⟩ := returns_spliceAll.mp splices
  exact ⟨rfl, fragments, between, rendered, same⟩

section Laid

variable {workspace : Workspace} {path : Path} {phrase : String} {place : List String}
  {layout : Layout} {fragments : List (List Char)} {last : Pass}
  (plain : PlainPhrase phrase.toList) (proper : layout.Proper phrase.toList)
  (located : workspace.tree.locate? path = some place)
  (rendered : Rendered workspace (layout.regions 0) fragments last)
  (some_marker : layout.markers ≠ [])

include plain proper located rendered some_marker

theorem update_layout {bytes : List UInt8} {text : List Char}
    (there : workspace.tree.bytesAt? place = some bytes) (decodes : decodeStrict? bytes = some text)
    (laid : layout.text = unifyNewlines text) :
    ∃ pass, pass.modules = last.modules ∧ update workspace none path phrase =
      ⟨.ok ⟨(layout.markers.map Marker.address).map fun address => String.ofList address.1⟩, pass,
        workspace.tree.set place (encode (String.ofList (layout.fill id fragments).text))⟩ := by
  have found := findMarkers_layout plain proper
  have regions : (layout.regions 0).length = layout.markers.length := by
    simpa using congrArg List.length (layout.addresses_regions 0)
  have some_region : (layout.regions 0).isEmpty = false := by
    rw [List.isEmpty_eq_false_iff, ← List.length_pos_iff, regions, List.length_pos_iff]
    exact some_marker
  have splices : Returns (spliceAll (unifyNewlines text) phrase.toList regionFragment) workspace
      .empty ⟨(layout.fill id fragments).text, layout.regions 0⟩ last := by
    rw [← laid, returns_spliceAll, found]
    refine ⟨fragments, rendered, ?_⟩
    rw [← assemble_layout plain proper (rendered.count.trans regions), found]
  have ran := regenerate_returns located there decodes splices some_region
  obtain ⟨pass, modules, ends⟩ := update_of_returns ran some_region located there
  refine ⟨pass, modules, ?_⟩
  rw [ends, ← layout.addresses_regions 0, List.map_map]
  rfl

/-- The next update finds the same regions in the filled layout and gives them the same fragments. -/
theorem update_layout_again {old : List UInt8} (there : workspace.tree.bytesAt? place = some old)
    (free : '\r' ∉ layout.text) (unread : Unread workspace place last)
    (unmarked : ∀ fragment ∈ fragments, Plain phrase.toList (unifyNewlines fragment)) :
    let after := workspace.tree.set place (encode (String.ofList (layout.fill id fragments).text))
    let again := update { workspace with tree := after } none path phrase
    again.result =
        .ok ⟨(layout.markers.map Marker.address).map fun address => String.ofList address.1⟩ ∧
      (again.tree.bytesAt? place = after.bytesAt? place ↔
        Kept layout.text.length (layout.regions 0) (fragments.map unifyNewlines)) := by
  intro after again
  obtain ⟨second, second_proper, second_text, addresses, fixpoint⟩ :=
    proper.refill plain free rendered.ended unmarked
  have replaced : FileTree.Replaced workspace.tree after place _ :=
    FileTree.replaced_set there (encode (String.ofList (layout.fill id fragments).text))
  have beside : Beside place _ workspace { workspace with tree := after } := ⟨replaced, rfl, rfl⟩
  have same : (second.regions 0).map Region.address = (layout.regions 0).map Region.address := by
    rw [second.addresses_regions, addresses, layout.addresses_regions]
  have some_second : second.markers ≠ [] := by
    intro none
    rw [none] at addresses
    exact some_marker (List.map_eq_nil_iff.mp addresses.symm)
  have here : after.locate? path = some place := by rw [replaced.locate?_eq, located]
  -- The bytes that were written decode to the filled text, whose layout is the second one.
  obtain ⟨pass, _, ends⟩ := update_layout plain second_proper here
    (rendered.beside beside unread same) some_second replaced.written
    (decodeStrict?_encode _) second_text
  rw [show again = _ from ends, addresses]
  refine ⟨rfl, ?_⟩
  rw [← fixpoint, FileTree.bytesAt?_set, replaced.written, Option.some_inj]
  constructor
  · intro bytes
    have decoded := congrArg decodeStrict? bytes
    rw [decodeStrict?_encode, decodeStrict?_encode] at decoded
    exact Option.some_inj.mp decoded
  · intro text
    rw [text]

end Laid

/-- A second update of a well-marked document reports the same as the first. It leaves the document
as the first one wrote it exactly if the fragments keep to their regions, provided that none of them
brings a marker or an empty heading and that the document is not one of its own sources. -/
theorem update_again_iff {workspace : Workspace} {refused : Option ReplaceStep} {path : Path}
    {phrase : String} {place : List String} {bytes : List UInt8} {text : List Char}
    {report : Update} (plain : PlainPhrase phrase.toList)
    (located : workspace.tree.locate? path = some place)
    (there : workspace.tree.bytesAt? place = some bytes) (decodes : decodeStrict? bytes = some text)
    (marked : WellMarked phrase.toList (unifyNewlines text))
    (updated : (update workspace refused path phrase).result = .ok report)
    (unread : Unread workspace place (update workspace refused path phrase).pass) :
    let regions := findMarkers (unifyNewlines text) phrase.toList
    let after := (update workspace refused path phrase).tree
    let again := update { workspace with tree := after } refused path phrase
    ∃ fragments last, Rendered workspace regions fragments last ∧
      ((∀ fragment ∈ fragments, Plain phrase.toList (unifyNewlines fragment)) →
        again.result = .ok report ∧
        (again.tree.bytesAt? place = after.bytesAt? place ↔
          Kept (unifyNewlines text).length regions (fragments.map unifyNewlines))) := by
  obtain ⟨layout, proper, laid⟩ := marked.exists_layout plain
  have found := findMarkers_layout plain proper
  rcases update_cases workspace refused path phrase with ⟨fault, pass, ends, _⟩ |
    ⟨spliced, last, ran, empty, ends⟩ |
    ⟨rfl, spliced, last, _, _, _, ran, some_region, _⟩
  · rw [ends] at updated
    cases updated
  · obtain ⟨regions, fragments, between, rendered, _⟩ :=
      rendered_of_returns located there decodes ran
    rw [List.isEmpty_iff.mp empty] at regions
    rw [← regions] at rendered ⊢
    refine ⟨fragments, between, rendered, fun _ => ?_⟩
    -- Nothing was written, so the second update is the first one.
    have same : { workspace with tree := (update workspace refused path phrase).tree } = workspace := by
      rw [ends]
    rw [same]
    exact ⟨updated, fun _ => True.intro, fun _ => rfl⟩
  · obtain ⟨regions, fragments, between, rendered, same⟩ :=
      rendered_of_returns located there decodes ran
    cases same some_region
    refine ⟨fragments, last, rendered, fun unmarked => ?_⟩
    have free : '\r' ∉ layout.text := by
      rw [laid]
      exact free_unifyNewlines text
    have some_marker : layout.markers ≠ [] := by
      intro none
      have addresses := layout.addresses_regions 0
      rw [none, ← found, laid, ← regions, List.map_nil, List.map_eq_nil_iff] at addresses
      rw [addresses] at some_region
      cases some_region
    rw [← laid, found] at rendered ⊢
    obtain ⟨pass, modules, ends⟩ :=
      update_layout plain proper located rendered some_marker there decodes laid
    rw [ends] at updated unread ⊢
    cases updated
    rw [Unread, modules] at unread
    exact update_layout_again plain proper located rendered some_marker there free unread unmarked

/-- A heading in the fenced code of a comment keeps to its region. -/
theorem update_again_fenced :
    let source := "/** Holds.\n * ```\n * # t\n * ``` */\nexport const x = 1"
    let tree : FileTree := ⟨Path.ofString "/w", [],
      [(["w", "a"], encode source), (["w", "d"], encode "## N\r\nP a:\r\nold\r\n# End")]⟩
    let workspace : Workspace := ⟨tree, none, fun _ => .failed "not found"⟩
    let after := (update workspace none (Path.ofString "d") "P").tree
    let again := update { workspace with tree := after } none (Path.ofString "d") "P"
    after.bytesAt? ["w", "d"] = some (encode
      "## N\nP a:\n\n### x · constant\n\nHolds.\n```\n# t\n```\n\n**Value:** `1`\n\n# End") ∧
    again.tree.bytesAt? ["w", "d"] = after.bytesAt? ["w", "d"] := by
  intro source tree workspace after again
  have decodes : decodeStrict? (encode "## N\r\nP a:\r\nold\r\n# End") =
      some "## N\r\nP a:\r\nold\r\n# End".toList := decodeStrict?_encode _
  have only : ∀ line ∈ lines (unifyNewlines "## N\r\nP a:\r\nold\r\n# End".toList),
      "P".toList <+: line → line = "P a:\n".toList := by decide +kernel
  have marked : WellMarked "P".toList (unifyNewlines "## N\r\nP a:\r\nold\r\n# End".toList) := by
    refine ⟨?_, by decide +kernel, by decide +kernel, by decide +kernel⟩
    intro line member starts
    rw [only line member starts]
    exact ⟨"a".toList, .of_all " ".toList ":".toList rfl rfl (by decide) rfl (by decide) rfl⟩
  have ran : (update workspace none (Path.ofString "d") "P").result.toOption = some ⟨["a"]⟩ ∧
      (∀ module ∈ (update workspace none (Path.ofString "d") "P").pass.modules,
        tree.locate? module.path ≠ some ["w", "d"]) ∧
      after.bytesAt? ["w", "d"] = some (encode
        "## N\nP a:\n\n### x · constant\n\nHolds.\n```\n# t\n```\n\n**Value:** `1`\n\n# End") := by
    decide +kernel
  obtain ⟨reported, unread, wrote⟩ := ran
  obtain ⟨fragments, last, rendered, stable⟩ := update_again_iff
    ⟨by decide, by decide, by decide⟩ (by decide +kernel) (by decide +kernel) decodes marked
    (eq_ok_of_toOption reported) unread
  have given : some fragments.reverse =
      some ["### x · constant\n\nHolds.\n```\n# t\n```\n\n**Value:** `1`\n\n".toList] := by
    rw [← show _ = some fragments.reverse from congrArg (·.1.toOption) rendered]
    decide +kernel
  obtain rfl := List.reverse_eq_iff.mp (Option.some_inj.mp given)
  refine ⟨wrote, (stable ?_).2.mpr ?_⟩
  · decide +kernel
  · decide +kernel

/-- A heading of a comment ends the region for the second update, which writes what is below the
heading once more. -/
theorem update_again_repeats :
    let tree : FileTree := ⟨Path.ofString "/w", [],
      [(["w", "a"], encode "/** # T */export const x=1"), (["w", "d"], encode "\nP a:\n")]⟩
    let workspace : Workspace := ⟨tree, none, fun _ => .failed "not found"⟩
    let first := update workspace none (Path.ofString "d") "P"
    let again := update { workspace with tree := first.tree } none (Path.ofString "d") "P"
    WellMarked "P".toList (unifyNewlines "\nP a:\n".toList) ∧
    first.result = .ok ⟨["a"]⟩ ∧ Unread workspace ["w", "d"] first.pass ∧
    first.tree.bytesAt? ["w", "d"] =
      some (encode "\nP a:\n\n### x · constant\n\n# T\n\n**Value:** `1`\n\n") ∧
    again.result = .ok ⟨["a"]⟩ ∧
    again.tree.bytesAt? ["w", "d"] = some (encode
      "\nP a:\n\n### x · constant\n\n# T\n\n**Value:** `1`\n\n# T\n\n**Value:** `1`\n\n") ∧
    again.tree.bytesAt? ["w", "d"] ≠ first.tree.bytesAt? ["w", "d"] := by
  intro tree workspace first again
  have only : ∀ line ∈ lines (unifyNewlines "\nP a:\n".toList),
      "P".toList <+: line → line = "P a:\n".toList := by decide +kernel
  have marked : WellMarked "P".toList (unifyNewlines "\nP a:\n".toList) := by
    refine ⟨?_, by decide +kernel, by decide +kernel, by decide +kernel⟩
    intro line member starts
    rw [only line member starts]
    exact ⟨"a".toList, .of_all " ".toList ":".toList rfl rfl (by decide) rfl (by decide) rfl⟩
  have ran : first.result.toOption = some ⟨["a"]⟩ ∧
      (∀ module ∈ first.pass.modules, tree.locate? module.path ≠ some ["w", "d"]) ∧
      first.tree.bytesAt? ["w", "d"] =
        some (encode "\nP a:\n\n### x · constant\n\n# T\n\n**Value:** `1`\n\n") ∧
      again.result.toOption = some ⟨["a"]⟩ ∧
      again.tree.bytesAt? ["w", "d"] = some (encode
        "\nP a:\n\n### x · constant\n\n# T\n\n**Value:** `1`\n\n# T\n\n**Value:** `1`\n\n") := by
    decide +kernel
  obtain ⟨reported, unread, wrote, reported_again, repeated⟩ := ran
  refine ⟨marked, eq_ok_of_toOption reported, unread, wrote, eq_ok_of_toOption reported_again,
    repeated, ?_⟩
  rw [wrote, repeated]
  decide +kernel

end ApiSections.Document
