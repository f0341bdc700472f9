import ApiSections.Fragment.Render
import ApiSections.Proofs.Workspace.Sound

/-!
Version control is asked once about each file. However often links are wanted, in whatever order and by
whatever paths, every answer is that of a linker that knows nothing yet, and the files are asked about in
the order in which they first come up. An answer without a path and a failure are remembered as well.
-/

namespace ApiSections

namespace Link

variable (ask : Path → Answer) (files : List Path)

/-- A file that comes up for the first time. -/
def newcomer (file : Path) : Option Path := if file ∈ files then none else some file

theorem eraseDups_newcomer (file : Path) :
    (files ++ [file]).eraseDups = files.eraseDups ++ (newcomer files file).toList := by
  rw [List.eraseDups_append, newcomer]
  by_cases member : file ∈ files
  · simp [List.removeAll, member]
  · simp [List.removeAll, member, List.eraseDups_cons]

/-- What is remembered once some files have come up. -/
def Cache.after : Cache := ⟨files.eraseDups.map fun file => (file, (ask file).path?)⟩

theorem asked_after : (Cache.after ask files).asked = files.eraseDups := by
  rw [Cache.asked, Cache.after, List.map_map]
  exact List.map_id' _

theorem get?_after (file : Path) :
    (Cache.after ask files).get? file = if file ∈ files then some (ask file).path? else none := by
  rw [Cache.get?, Cache.after, List.find?_map, Option.map_map]
  cases found : files.eraseDups.find? ((·.1 == file) ∘ fun file => (file, (ask file).path?)) with
  | none =>
    have absent : file ∉ files := by
      intro member
      simpa using List.find?_eq_none.mp found file (List.mem_eraseDups.mpr member)
    rw [if_neg absent]
    rfl
  | some other =>
    have same : other = file := by simpa using List.find?_some found
    subst same
    have member := List.mem_eraseDups.mp (List.mem_of_find?_eq_some found)
    rw [if_pos member]
    rfl

/-- A file is asked about iff it comes up for the first time. -/
theorem relative_after (file : Path) :
    (Cache.after ask files).relative ask file =
      ((ask file).path?, (newcomer files file).map ask, Cache.after ask (files ++ [file])) := by
  rw [Cache.relative, get?_after, Cache.after, Cache.after, eraseDups_newcomer, List.map_append, newcomer]
  by_cases member : file ∈ files
  · simp only [if_pos member, Option.toList_none, List.map_nil, List.append_nil, Option.map_none]
  · simp only [if_neg member, Option.toList_some, List.map_singleton, Option.map_some]

end Link

namespace Fragment

/-- What is noted about an answer: why there is none. -/
def complaint : Link.Answer → List Event
  | .output _ _ => []
  | .failed reason =>
    [⟨⟨"tsdocsync.links", []⟩, debugLevel, "git ls-files failed",
      [("operation", .text "deep_link"), ("reason", .text reason)]⟩]

theorem execute_linkTo (target : Link.Target) (ask : Path → Link.Answer) (file : Path) (line : Int)
    (workspace : Workspace) (pass : Pass) :
    (linkTo target ask file line).execute workspace pass =
      (.ok (target.link (pass.links.relative ask file).1 line),
        { pass with
          links := (pass.links.relative ask file).2.2
          events := pass.events ++ (pass.links.relative ask file).2.1.toList.flatMap complaint }) := by
  have looked (next : Pass → Work (Option String)) :
      (get >>= next).execute workspace pass = (next pass).execute workspace pass := rfl
  rw [linkTo, looked]
  generalize pass.links.relative ask file = found
  rcases found with ⟨relative, asked, links⟩
  rcases asked with _ | answer
  · rw [Option.toList_none, List.flatMap_nil, List.append_nil]
    rfl
  · rw [Option.toList_some, List.flatMap_singleton]
    cases answer with
    | output code text =>
      rw [complaint, List.append_nil]
      rfl
    | failed reason => rfl

variable (tree : FileTree) (target : Link.Target) (ask : Path → Link.Answer)

/-- A pass in which links to some files were asked for, and nothing else. -/
def linkPass (files : List Path) : Pass :=
  { Pass.empty with
    links := .after ask files
    events := files.eraseDups.flatMap fun file => complaint (ask file) }

theorem links_linkPass (files : List Path) : (linkPass ask files).links = .after ask files := rfl

theorem events_concat (files : List Path) (file : Path) :
    (linkPass ask (files ++ [file])).events = (linkPass ask files).events ++
      ((Link.newcomer files file).map ask).toList.flatMap complaint := by
  rw [linkPass, linkPass, Link.eraseDups_newcomer, List.flatMap_append]
  cases Link.newcomer files file with
  | none => rfl
  | some file => rfl

/-- One more link: the answer of version control, and one more file that has come up. -/
theorem execute_linkFor (files : List Path) (path : Path) (line : Int) :
    (linkFor path line).execute ⟨tree, some target, ask⟩ (linkPass ask files) =
      (.ok (target.link (ask (tree.resolve path)).path? line),
        linkPass ask (files ++ [tree.resolve path])) := by
  have chosen : (linkFor path line).execute ⟨tree, some target, ask⟩ (linkPass ask files) =
      (linkTo target ask (tree.resolve path) line).execute ⟨tree, some target, ask⟩
        (linkPass ask files) := rfl
  rw [chosen, execute_linkTo, links_linkPass, Link.relative_after, ← events_concat]
  rfl

/-- Links to lines of files, wanted one after the other. -/
def links (queries : List (Path × Int)) : Work (List (Option String)) :=
  queries.mapM fun query => linkFor query.1 query.2

/-- The files that version control is asked about on the way. -/
def calls (workspace : Workspace) : Pass → List (Path × Int) → List Path
  | _, [] => []
  | pass, (path, line) :: queries =>
    let file := workspace.tree.resolve path
    let asked := (pass.links.relative workspace.ask file).2.1
    asked.toList.map (fun _ => file) ++
      calls workspace ((linkFor path line).execute workspace pass).2 queries

theorem execute_links (files : List Path) (queries : List (Path × Int)) :
    (links queries).execute ⟨tree, some target, ask⟩ (linkPass ask files) =
      (.ok (queries.map fun query => target.link (ask (tree.resolve query.1)).path? query.2),
        linkPass ask (files ++ queries.map fun query => tree.resolve query.1)) := by
  induction queries generalizing files with
  | nil =>
    rw [List.map_nil, List.map_nil, List.append_nil]
    rfl
  | cons query queries ih =>
    rw [links, List.mapM_cons, Work.execute_bind, execute_linkFor]
    dsimp only
    rw [Work.execute_bind, ← links, ih, List.append_assoc]
    rfl

theorem calls_linkPass (files : List Path) (queries : List (Path × Int)) :
    files.eraseDups ++ calls ⟨tree, some target, ask⟩ (linkPass ask files) queries =
      (files ++ queries.map fun query => tree.resolve query.1).eraseDups := by
  -- The files that have come up already stand in front, so that each call extends the distinct ones.
  induction queries generalizing files with
  | nil => rw [calls, List.map_nil, List.append_nil, List.append_nil]
  | cons query queries ih =>
    rcases query with ⟨path, line⟩
    have called : ((Link.newcomer files (tree.resolve path)).map ask).toList.map
        (fun _ => tree.resolve path) = (Link.newcomer files (tree.resolve path)).toList := by
      rw [Link.newcomer]
      split
      · rfl
      · rfl
    rw [calls, execute_linkFor, links_linkPass, Link.relative_after, List.map_cons]
    dsimp only
    rw [called, ← List.append_assoc, ← Link.eraseDups_newcomer, ih, List.append_assoc]
    rfl

/-- Every answer is that of a linker that is new, and version control is asked once about each file, in
the order in which the files first come up; what it fails to answer is noted once as well. -/
theorem links_asked_once (queries : List (Path × Int)) :
    let workspace : Workspace := ⟨tree, some target, ask⟩
    let files := queries.map fun query => tree.resolve query.1
    ∃ answers pass, (links queries).execute workspace .empty = (.ok answers, pass) ∧
      answers = queries.map (fun query => target.link (ask (tree.resolve query.1)).path? query.2) ∧
      answers.map .ok = queries.map (fun query => Work.answer workspace (linkFor query.1 query.2)) ∧
      calls workspace .empty queries = files.eraseDups ∧ pass.links.asked = files.eraseDups ∧
      pass.events = files.eraseDups.flatMap fun file => complaint (ask file) := by
  intro workspace files
  have fresh : Pass.empty = linkPass ask [] := rfl
  refine ⟨_, linkPass ask files, ?_, rfl, ?_, ?_, Link.asked_after ask files, rfl⟩
  · rw [fresh]
    exact execute_links tree target ask [] queries
  · rw [List.map_map]
    apply List.map_congr_left
    intro query _
    rw [Work.answer, fresh, execute_linkFor]
    rfl
  · rw [fresh]
    exact calls_linkPass tree target ask [] queries

end Fragment

end ApiSections
