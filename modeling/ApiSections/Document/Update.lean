import ApiSections.Document.Splice
import ApiSections.File.Replace
import ApiSections.Fragment.Render

/-!
Updating a document: it is read once, every marked region is rendered, and it is written once.
-/

namespace ApiSections.Document

/-- What an update did: the sources of its regions, in document order. -/
structure Update where
  sources : List String
  deriving Repr, DecidableEq

namespace Update

def count (update : Update) : Nat := update.sources.length

/-- Whether there was anything to update. -/
def hasMarkers (update : Update) : Bool := !update.sources.isEmpty

end Update

/-- The text of a document, with line feeds only. -/
def readText (path : Path) : Work (List Char) := do
  match ((← read).tree.read? path).bind Text.decodeStrict? with
  | some text => return Text.unifyNewlines text
  | none => throw (.failure (.unreadable (toString path) (some "OSError")))

def progressLine (region : Region) : String :=
  s!"Generating docs for {String.ofList region.source} with heading level {region.baseLevel + 1}..."

/-- The fragment of a region; its source is named from the working directory. -/
def regionFragment (region : Region) : Work (List Char) := do
  Work.announce (progressLine region)
  let text ← Fragment.render (Path.ofString (String.ofList region.source))
    (headingMarks region.baseLevel)
  return text.toList

def note (path : Path) (message : String) (extra : Fields) : Work Unit :=
  Work.emit ⟨"tsdocsync.splice", []⟩ infoLevel message
    ([("operation", .text "update"), ("document", .text (toString path))] ++ extra)

/-- The new text of a document; it is not yet written. -/
def regenerate (path : Path) (phrase : String) : Work Spliced := do
  let text ← readText path
  let spliced ← spliceAll text phrase.toList regionFragment
  if spliced.regions.isEmpty then note path "No markers found" []
  return spliced

/-- The end of an update: what came of it, what the pass remembers and the files as they are now. -/
structure Outcome where
  result : Except Fault Update
  pass : Pass
  tree : FileTree

/-- Updates a document. Nothing is written before all regions are rendered, nor if there are
none. -/
def update (workspace : Workspace) (refused : Option ReplaceStep) (path : Path) (phrase : String) :
    Outcome :=
  match (regenerate path phrase).execute workspace .empty with
  | (.error fault, pass) => ⟨.error fault, pass, workspace.tree⟩
  | (.ok spliced, pass) =>
    if spliced.regions.isEmpty then ⟨.ok ⟨[]⟩, pass, workspace.tree⟩
    else
      let sources := spliced.regions.map fun region => String.ofList region.source
      let (replaced, tree) :=
        workspace.tree.replace refused path (Text.encode (String.ofList spliced.text))
      if replaced then
        let (_, pass) := (note path "Updated document" [("regions", .int sources.length)]).execute
          workspace pass
        ⟨.ok ⟨sources⟩, pass, tree⟩
      else ⟨.error (.failure (.unwritable (toString path))), pass, tree⟩

end ApiSections.Document
