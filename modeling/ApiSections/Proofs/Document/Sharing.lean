import ApiSections.Proofs.Document.Atomicity
import ApiSections.Proofs.Fragment.Settled

/-!
One pass renders all regions of a document, and remembers modules, properties and answers of version
control from one region to the next. The document is as if each region had a pass of its own.
-/

namespace ApiSections.Document

open Work (Settles)

variable {workspace : Workspace} {right : Work.Rightness}

/-- The fragment of a region in a pass of its own. -/
def freshFragment (workspace : Workspace) (region : Region) : Except Fault (List Char) :=
  ((regionFragment region).execute workspace .empty).1

/-- The new text of a document, with a pass for each region. -/
def freshText (workspace : Workspace) (path : Path) (phrase : String) : Except Fault Spliced :=
  match (workspace.tree.read? path).bind Text.decodeStrict? with
  | some text => spliceAll (Text.unifyNewlines text) phrase.toList (freshFragment workspace)
  | none => .error (.failure (.unreadable (toString path) (some "OSError")))

theorem settles_regionFragment (region : Region) :
    Settles workspace (Lookup.rightly workspace) (regionFragment region)
      (freshFragment workspace region) := by
  have keeps : (Work.settling workspace (Lookup.rightly workspace)).Keeps (regionFragment region) := by
    apply (Work.settling workspace _).bind (Settles.announce _).keeps
    intro _
    apply (Work.settling workspace _).bind (Fragment.settles_render _ _).keeps
    intro text
    exact (Settles.pure _).keeps
  exact keeps.settles

theorem settles_replaceEach {render : Region → Work (List Char)}
    {fresh : Region → Except Fault (List Char)}
    (each : ∀ region, Settles workspace right (render region) (fresh region))
    (regions : List Region) (text : List Char) :
    Settles workspace right (replaceEach render regions text) (replaceEach fresh regions text) := by
  induction regions generalizing text with
  | nil => exact .pure text
  | cons region rest ih =>
    have here := each region
    rw [replaceEach, replaceEach]
    cases outcome : fresh region with
    | error fault =>
      rw [outcome] at here
      exact here.stop _
    | ok fragment =>
      rw [outcome] at here
      exact here.bind (ih _)

theorem settles_spliceAll {render : Region → Work (List Char)}
    {fresh : Region → Except Fault (List Char)}
    (each : ∀ region, Settles workspace right (render region) (fresh region))
    (text phrase : List Char) :
    Settles workspace right (spliceAll text phrase render) (spliceAll text phrase fresh) := by
  have replaces := settles_replaceEach each (findMarkers text phrase).reverse text
  rw [spliceAll, spliceAll]
  cases outcome : replaceEach fresh (findMarkers text phrase).reverse text with
  | error fault =>
    rw [outcome] at replaces
    exact replaces.stop _
  | ok updated =>
    rw [outcome] at replaces
    exact replaces.bind (.pure _)

theorem settles_regenerate (path : Path) (phrase : String) :
    Settles workspace (Lookup.rightly workspace) (regenerate path phrase)
      (freshText workspace path phrase) := by
  have reads : Settles workspace (Lookup.rightly workspace) (readText path)
      (match (workspace.tree.read? path).bind Text.decodeStrict? with
        | some text => .ok (Text.unifyNewlines text)
        | none => .error (.failure (.unreadable (toString path) (some "OSError")))) := by
    apply Settles.read
    cases (workspace.tree.read? path).bind Text.decodeStrict? with
    | some text => exact .pure _
    | none => exact .throw _
  rw [regenerate, freshText]
  cases found : (workspace.tree.read? path).bind Text.decodeStrict? with
  | none =>
    rw [found] at reads
    exact reads.stop _
  | some text =>
    rw [found] at reads
    apply reads.bind
    dsimp only
    have splices : Settles workspace (Lookup.rightly workspace)
        (spliceAll (Text.unifyNewlines text) phrase.toList regionFragment)
        (spliceAll (Text.unifyNewlines text) phrase.toList (freshFragment workspace)) :=
      settles_spliceAll settles_regionFragment _ _
    cases outcome : spliceAll (Text.unifyNewlines text) phrase.toList (freshFragment workspace) with
    | error fault =>
      rw [outcome] at splices
      exact splices.stop _
    | ok spliced =>
      rw [outcome] at splices
      apply splices.bind
      split
      · exact .bind (.emit _ _ _ _) (.pure _)
      · exact .pure _

/-- A property that is rightly remembered is the one that a search from the start finds. -/
theorem answer_propertyOf {owner : Symbol} {name : String} {found : Option Symbol}
    (right : Lookup.Right workspace owner name found) :
    Work.answer workspace (Lookup.propertyOf owner name) = .ok found := by
  obtain ⟨outcome, last, ran, _, comes, _⟩ :=
    Lookup.tracks_propertyBy Lookup.tracks_values owner name right.placed
      (fun _ wanted => wanted.elim) .empty Work.sound_empty
  have answers : Work.answer workspace (Lookup.propertyOf owner name) = outcome := by
    rw [Work.answer, Lookup.propertyOf, ran]
  rw [answers]
  exact comes.unique (Lookup.grows_property owner name) right.comes

/-- The ends of an update, by what comes of a pass for each region. -/
theorem update_cases_fresh (workspace : Workspace) (refused : Option ReplaceStep) (path : Path)
    (phrase : String) :
    ∃ last, Work.Sound workspace (Lookup.rightly workspace) last ∧
      match freshText workspace path phrase with
      | .error fault => update workspace refused path phrase = ⟨.error fault, last, workspace.tree⟩
      | .ok spliced => ∃ place old, workspace.tree.locate? path = some place ∧
          workspace.tree.bytesAt? place = some old ∧
          update workspace refused path phrase =
            if spliced.regions.isEmpty then ⟨.ok ⟨[]⟩, last, workspace.tree⟩
            else if refused = none then
              ⟨.ok ⟨spliced.regions.map fun region => String.ofList region.source⟩, last,
                workspace.tree.set place (Text.encode (String.ofList spliced.text))⟩
            else ⟨.error (.failure (.unwritable (toString path))), last, workspace.tree⟩ := by
  obtain ⟨last, ran, sound⟩ := settles_regenerate path phrase .empty Work.sound_empty
  cases made : freshText workspace path phrase with
  | error fault =>
    rw [made] at ran
    exact ⟨last, sound, by rw [update, ran]⟩
  | ok spliced =>
    rw [made] at ran
    obtain ⟨text, between, reads, _⟩ := returns_regenerate ran
    obtain ⟨_, place, old, _, located, there, _⟩ := returns_readText reads
    cases empty : spliced.regions.isEmpty with
    | true =>
      refine ⟨last, sound, place, old, located, there, ?_⟩
      rw [update, ran]
      simp [empty]
    | false =>
      cases refused with
      | some step =>
        refine ⟨last, sound, place, old, located, there, ?_⟩
        rw [update, ran]
        simp [empty, FileTree.replace_refused]
      | none =>
        refine ⟨((note path "Updated document" [("regions", .int spliced.regions.length)]).execute
          workspace last).2, ⟨sound.modules, sound.links, sound.members, sound.properties⟩, place,
          old, located, there, ?_⟩
        rw [update, ran]
        simp [empty, FileTree.replace_of_there located there]

/-- An update gives the document that it would give with a pass for each region, and stops where such
an update stops, unless the write is refused. What the pass remembers is right: modules, answers of
version control and members are those of the tree, and a property, also one from the middle of other
searches, is what a search from the start finds. -/
theorem update_fresh (workspace : Workspace) (refused : Option ReplaceStep) (path : Path)
    (phrase : String) :
    let outcome := update workspace refused path phrase
    Work.Sound workspace (Lookup.rightly workspace) outcome.pass ∧
    (∀ entry ∈ outcome.pass.properties,
      ((Lookup.propertyOf entry.1 entry.2.1).execute workspace .empty).1 = .ok entry.2.2) ∧
    match outcome.result with
    | .error fault => freshText workspace path phrase = .error fault ∨ refused ≠ none
    | .ok report => ∃ place spliced, workspace.tree.locate? path = some place ∧
        freshText workspace path phrase = .ok spliced ∧
        report.sources = spliced.regions.map (fun region => String.ofList region.source) ∧
        if report.hasMarkers then
          FileTree.Replaced workspace.tree outcome.tree place
            (Text.encode (String.ofList spliced.text))
        else outcome.tree = workspace.tree := by
  intro outcome
  obtain ⟨last, sound, ends⟩ := update_cases_fresh workspace refused path phrase
  have remembered : ∀ entry ∈ last.properties,
      ((Lookup.propertyOf entry.1 entry.2.1).execute workspace .empty).1 = .ok entry.2.2 :=
    fun entry member => answer_propertyOf (sound.properties entry member)
  cases made : freshText workspace path phrase with
  | error fault =>
    rw [made] at ends
    rw [show outcome = _ from ends]
    exact ⟨sound, remembered, .inl rfl⟩
  | ok spliced =>
    rw [made] at ends
    obtain ⟨place, old, located, there, ends⟩ := ends
    rw [show outcome = _ from ends]
    cases empty : spliced.regions.isEmpty with
    | true =>
      refine ⟨sound, remembered, place, spliced, located, rfl, ?_, rfl⟩
      rw [List.isEmpty_iff.mp empty]
      rfl
    | false =>
      cases refused with
      | some step => exact ⟨sound, remembered, .inr (by simp)⟩
      | none =>
        have markers : (Update.mk (spliced.regions.map fun region =>
            String.ofList region.source)).hasMarkers = true := by
          rw [Update.hasMarkers, List.isEmpty_map, empty]
          rfl
        refine ⟨sound, remembered, place, spliced, located, rfl, rfl, ?_⟩
        rw [if_pos markers]
        exact FileTree.replaced_set there _

end ApiSections.Document
