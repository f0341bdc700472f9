import ApiSections.Document.Update
import ApiSections.Proofs.File.Replace
import ApiSections.Proofs.Document.Splicing
import ApiSections.Proofs.Workspace.Returns

/-!
An update writes the whole spliced document or nothing.
-/

namespace ApiSections.Document

theorem returns_readText {path : Path} {workspace : Workspace} {pass last : Pass}
    {text : List Char} (ran : Returns (readText path) workspace pass text last) :
    last = pass ∧ ∃ place bytes decoded, workspace.tree.locate? path = some place ∧
      workspace.tree.bytesAt? place = some bytes ∧ Text.decodeStrict? bytes = some decoded ∧
      text = Text.unifyNewlines decoded := by
  rw [readText, returns_read] at ran
  split at ran
  · rename_i decoded found
    obtain ⟨bytes, read, decodes⟩ := Option.bind_eq_some_iff.mp found
    obtain ⟨place, located, there⟩ := Option.bind_eq_some_iff.mp read
    obtain ⟨rfl, rfl⟩ := returns_pure.mp ran
    exact ⟨rfl, place, bytes, decoded, located, there, decodes, rfl⟩
  · exact absurd ran not_returns_throw

theorem returns_regenerate {path : Path} {phrase : String} {workspace : Workspace}
    {pass last : Pass} {spliced : Spliced}
    (ran : Returns (regenerate path phrase) workspace pass spliced last) :
    ∃ text between, Returns (readText path) workspace pass text pass ∧
      Returns (spliceAll text phrase.toList regionFragment) workspace pass spliced between ∧
      (spliced.regions.isEmpty = false → last = between) := by
  rw [regenerate, returns_bind] at ran
  obtain ⟨text, first, reads, ran⟩ := ran
  obtain ⟨rfl, _⟩ := returns_readText reads
  rw [returns_bind] at ran
  obtain ⟨result, between, splices, ran⟩ := ran
  cases empty : result.regions.isEmpty with
  | true =>
    simp only [empty, if_true, returns_bind, returns_pure] at ran
    obtain ⟨_, _, _, rfl, _⟩ := ran
    refine ⟨text, between, reads, splices, ?_⟩
    intro some_region
    rw [empty] at some_region
    cases some_region
  | false =>
    simp only [empty, Bool.false_eq_true, if_false, returns_pure] at ran
    obtain ⟨rfl, rfl⟩ := ran
    exact ⟨text, last, reads, splices, fun _ => rfl⟩

theorem regenerate_returns {path : Path} {phrase : String} {workspace : Workspace}
    {pass last : Pass} {spliced : Spliced} {place : List String} {bytes : List UInt8}
    {text : List Char} (located : workspace.tree.locate? path = some place)
    (there : workspace.tree.bytesAt? place = some bytes)
    (decodes : Text.decodeStrict? bytes = some text)
    (splices : Returns (spliceAll (Text.unifyNewlines text) phrase.toList regionFragment) workspace
      pass spliced last)
    (some_region : spliced.regions.isEmpty = false) :
    Returns (regenerate path phrase) workspace pass spliced last := by
  have reads : Returns (readText path) workspace pass (Text.unifyNewlines text) pass := by
    have found : (workspace.tree.read? path).bind Text.decodeStrict? = some text := by
      rw [FileTree.read?, located, Option.bind_some, there, Option.bind_some, decodes]
    rw [readText, returns_read, found]
    exact returns_pure.mpr ⟨rfl, rfl⟩
  rw [regenerate, returns_bind]
  refine ⟨_, _, reads, ?_⟩
  rw [returns_bind]
  refine ⟨spliced, last, splices, ?_⟩
  simp only [some_region, Bool.false_eq_true, if_false]
  exact returns_pure.mpr ⟨rfl, rfl⟩

theorem regions_of_returns {text phrase : List Char} {render : Region → Work (List Char)}
    {workspace : Workspace} {pass last : Pass} {spliced : Spliced}
    (ran : Returns (spliceAll text phrase render) workspace pass spliced last) :
    spliced.regions = findMarkers text phrase := by
  rw [spliceAll_eq, returns_map] at ran
  obtain ⟨fragments, _, rfl⟩ := ran
  rfl

/-- A document whose regions are all rendered is set, unless the write is refused. -/
theorem update_of_returns {workspace : Workspace} {path : Path} {phrase : String}
    {spliced : Spliced} {last : Pass} {place : List String} {old : List UInt8}
    (ran : Returns (regenerate path phrase) workspace .empty spliced last)
    (some_region : spliced.regions.isEmpty = false)
    (located : workspace.tree.locate? path = some place)
    (there : workspace.tree.bytesAt? place = some old) :
    ∃ pass, pass.modules = last.modules ∧ update workspace none path phrase =
      ⟨.ok ⟨spliced.regions.map fun region => String.ofList region.source⟩, pass,
        workspace.tree.set place (Text.encode (String.ofList spliced.text))⟩ := by
  have executed : (regenerate path phrase).execute workspace .empty = (.ok spliced, last) := ran
  refine ⟨((note path "Updated document" [("regions", .int spliced.regions.length)]).execute
    workspace last).2, rfl, ?_⟩
  rw [update, executed]
  simp [some_region, FileTree.replace_of_there located there]

/-- The ends of an update: it stops, there is nothing to do, or the document is set. -/
theorem update_cases (workspace : Workspace) (refused : Option ReplaceStep) (path : Path)
    (phrase : String) :
    (∃ fault pass, update workspace refused path phrase = ⟨.error fault, pass, workspace.tree⟩ ∧
      ∀ spliced last, Returns (regenerate path phrase) workspace .empty spliced last →
        refused ≠ none ∧ spliced.regions.isEmpty = false) ∨
    (∃ spliced last, Returns (regenerate path phrase) workspace .empty spliced last ∧
      spliced.regions.isEmpty = true ∧
      update workspace refused path phrase = ⟨.ok ⟨[]⟩, last, workspace.tree⟩) ∨
    (refused = none ∧
      ∃ spliced last pass place old, Returns (regenerate path phrase) workspace .empty spliced last ∧
      spliced.regions.isEmpty = false ∧ workspace.tree.locate? path = some place ∧
      workspace.tree.bytesAt? place = some old ∧ pass.modules = last.modules ∧
      update workspace refused path phrase =
        ⟨.ok ⟨spliced.regions.map fun region => String.ofList region.source⟩, pass,
          workspace.tree.set place (Text.encode (String.ofList spliced.text))⟩) := by
  cases ran : (regenerate path phrase).execute workspace .empty with
  | mk outcome last =>
    cases outcome with
    | error fault =>
      refine .inl ⟨fault, last, by rw [update, ran], ?_⟩
      intro spliced other returned
      cases ran.symm.trans returned
    | ok spliced =>
      have returned : Returns (regenerate path phrase) workspace .empty spliced last := ran
      cases empty : spliced.regions.isEmpty with
      | true => exact .inr (.inl ⟨spliced, last, ran, empty, by rw [update, ran]; simp [empty]⟩)
      | false =>
        obtain ⟨text, between, reads, _⟩ := returns_regenerate returned
        obtain ⟨_, place, old, _, located, there, _⟩ := returns_readText reads
        cases refused with
        | some step =>
          refine .inl ⟨.failure (.unwritable (toString path)), last, ?_, ?_⟩
          · rw [update, ran]
            simp [empty, FileTree.replace_refused]
          intro spliced' other returned'
          cases ran.symm.trans returned'
          exact ⟨by simp, empty⟩
        | none =>
          obtain ⟨pass, modules, ends⟩ := update_of_returns returned empty located there
          exact .inr (.inr ⟨rfl, spliced, last, pass, place, old, ran, empty, located, there, modules,
            ends⟩)

/-- An update that stops or finds no markers leaves every file as it was, and no temporary file
stays behind. Otherwise only the document changes: it gets the spliced text, and the report names
the regions in order. An update stops only if the text cannot be made or the write is refused. -/
theorem update_all_or_nothing (workspace : Workspace) (refused : Option ReplaceStep) (path : Path)
    (phrase : String) :
    let outcome := update workspace refused path phrase
    match outcome.result with
    | .error _ => outcome.tree = workspace.tree ∧
        ∀ spliced last, Returns (regenerate path phrase) workspace .empty spliced last →
          refused ≠ none ∧ spliced.regions.isEmpty = false
    | .ok report => ∃ place bytes text spliced pass,
        workspace.tree.locate? path = some place ∧ workspace.tree.bytesAt? place = some bytes ∧
        Text.decodeStrict? bytes = some text ∧
        Returns (spliceAll (Text.unifyNewlines text) phrase.toList regionFragment) workspace .empty
          spliced pass ∧
        report.sources = (findMarkers (Text.unifyNewlines text) phrase.toList).map
          (fun region => String.ofList region.source) ∧
        report.count = (findMarkers (Text.unifyNewlines text) phrase.toList).length ∧
        if report.hasMarkers then
          FileTree.Replaced workspace.tree outcome.tree place (Text.encode (String.ofList spliced.text))
        else outcome.tree = workspace.tree := by
  intro outcome
  rcases update_cases workspace refused path phrase with ⟨fault, pass, ends, only⟩ |
    ⟨spliced, last, ran, empty, ends⟩ |
    ⟨_, spliced, last, pass, place, old, ran, some_region, located, there, _, ends⟩
  · rw [show outcome = _ from ends]
    exact ⟨rfl, only⟩
  · obtain ⟨text, between, reads, splices, _⟩ := returns_regenerate ran
    obtain ⟨_, place, bytes, decoded, located, there, decodes, rfl⟩ := returns_readText reads
    have regions := regions_of_returns splices
    have none : findMarkers (Text.unifyNewlines decoded) phrase.toList = [] := by
      rw [← regions]
      exact List.isEmpty_iff.mp empty
    rw [show outcome = _ from ends]
    refine ⟨place, bytes, decoded, spliced, between, located, there, decodes, splices, ?_⟩
    rw [none]
    exact ⟨rfl, rfl, rfl⟩
  · obtain ⟨text, between, reads, splices, _⟩ := returns_regenerate ran
    obtain ⟨_, place', bytes, decoded, located', there', decodes, rfl⟩ := returns_readText reads
    cases located.symm.trans located'
    have regions := regions_of_returns splices
    have markers : (Update.mk (spliced.regions.map fun region =>
        String.ofList region.source)).hasMarkers = true := by
      rw [Update.hasMarkers, List.isEmpty_map, some_region]
      rfl
    rw [show outcome = _ from ends]
    refine ⟨place, bytes, decoded, spliced, between, located, there', decodes, splices, ?_, ?_, ?_⟩
    · rw [← regions]
    · rw [← regions, Update.count, List.length_map]
    · rw [if_pos markers]
      exact FileTree.replaced_set there _

end ApiSections.Document
