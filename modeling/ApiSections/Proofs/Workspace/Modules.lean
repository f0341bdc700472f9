import ApiSections.Proofs.File.Replace
import ApiSections.Workspace.Load

/-!
The modules of a tree. A module has the path of its file, seen from the root and without double dots.
-/

namespace ApiSections

namespace Path

theorem not_mem_collapse {done parts : List String} (free : ".." ∉ done) :
    ".." ∉ collapse done parts := by
  induction parts generalizing done with
  | nil =>
    rw [collapse, List.mem_reverse]
    exact free
  | cons part rest ih =>
    by_cases up : part = ".."
    · rw [up, collapse]
      exact ih fun member => free (List.mem_of_mem_tail member)
    · rw [collapse]
      · apply ih
        rw [List.mem_cons, not_or]
        exact ⟨Ne.symm up, free⟩
      · exact up

theorem collapse_of_not_mem {done parts : List String} (free : ".." ∉ parts) :
    collapse done parts = done.reverse ++ parts := by
  induction parts generalizing done with
  | nil => rw [collapse, List.append_nil]
  | cons part rest ih =>
    rw [List.mem_cons, not_or] at free
    rw [collapse, ih free.2, List.reverse_cons, List.append_assoc]
    · rfl
    · exact Ne.symm free.1

end Path

namespace FileTree

theorem resolve_resolve (tree : FileTree) (path : Path) :
    tree.resolve (tree.resolve path) = tree.resolve path := by
  have free : ".." ∉ (tree.resolve path).parts := Path.not_mem_collapse (by simp)
  change (⟨"/", Path.collapse [] (tree.resolve path).parts⟩ : Path) = tree.resolve path
  rw [Path.collapse_of_not_mem free]
  rfl

end FileTree

namespace Workspace

/-- The module of a file. -/
def module? (workspace : Workspace) (path : Path) : Option Module :=
  (workspace.tree.read? (workspace.tree.resolve path)).map
    (Module.ofBytes (workspace.tree.resolve path))

/-- The paths of the files. -/
def paths (workspace : Workspace) : List Path :=
  workspace.tree.files.map fun file => ⟨"/", file.1⟩

variable {workspace : Workspace} {path : Path} {module : Module}

theorem module?_resolve (workspace : Workspace) (path : Path) :
    workspace.module? (workspace.tree.resolve path) = workspace.module? path := by
  rw [module?, FileTree.resolve_resolve, module?]

theorem path_of_module? (found : workspace.module? path = some module) :
    module.path = workspace.tree.resolve path := by
  obtain ⟨bytes, _, rfl⟩ := Option.map_eq_some_iff.mp found
  rfl

/-- A module is found under its own path. -/
theorem module?_path (found : workspace.module? path = some module) :
    workspace.module? module.path = some module := by
  rw [path_of_module? found, module?_resolve, found]

/-- The path of a module is that of a file. -/
theorem path_mem_paths (found : workspace.module? path = some module) :
    module.path ∈ workspace.paths := by
  obtain ⟨bytes, content, _⟩ := Option.map_eq_some_iff.mp found
  obtain ⟨place, located, there⟩ := Option.bind_eq_some_iff.mp content
  have here : place ∈ workspace.tree.files.map (·.1) := by
    apply Classical.byContradiction
    intro absent
    rw [← FileTree.bytesAt?_eq_none_iff, there] at absent
    cases absent
  obtain ⟨file, listed, rfl⟩ := List.mem_map.mp here
  have same := FileTree.resolve_of_locate? located
  rw [FileTree.resolve_resolve] at same
  refine List.mem_map.mpr ⟨file, listed, ?_⟩
  rw [path_of_module? found, ← same]
  rfl

end Workspace

end ApiSections
