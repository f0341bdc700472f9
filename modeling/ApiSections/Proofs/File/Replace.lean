import ApiSections.File.Replace

/-!
A replacement changes the bytes of one file or nothing at all, and its temporary sibling, whose name
was free before, is gone afterwards.
-/

namespace ApiSections

/-- Where a path leads through directories that exist is where it leads without double dots. -/
theorem FileTree.walk?_collapse {tree : FileTree} {here parts place : List String}
    (walks : tree.walk? here parts = some place) : Path.collapse here.reverse parts = place := by
  induction parts generalizing here with
  | nil =>
    cases walks
    rw [Path.collapse, List.reverse_reverse]
  | cons part rest ih =>
    rw [FileTree.walk?] at walks
    split at walks
    · by_cases up : part = ".."
      · rw [if_pos up] at walks
        rw [up, Path.collapse, ← ih walks, List.tail_reverse]
      · rw [if_neg up] at walks
        rw [Path.collapse, ← ih walks, List.reverse_append]
        · rfl
        · exact up
    · cases walks

theorem FileTree.resolve_of_locate? {tree : FileTree} {path : Path} {place : List String}
    (located : tree.locate? path = some place) : (tree.resolve path).parts = place :=
  walk?_collapse located

namespace FileTree

variable {tree : FileTree} {parts : List String}

theorem bytesAt?_eq_none_iff : tree.bytesAt? parts = none ↔ parts ∉ tree.files.map (·.1) := by
  rw [bytesAt?, Option.map_eq_none_iff, List.find?_eq_none]
  constructor
  · intro other member
    obtain ⟨file, among, same⟩ := List.mem_map.mp member
    exact other file among (by simp [same])
  · intro free file among same
    exact free (List.mem_map.mpr ⟨file, among, by simpa using same⟩)

theorem temporary_injective {first second : Nat}
    (same : temporary parts first = temporary parts second) : first = second := by
  rw [temporary, temporary, List.append_cancel_left_eq] at same
  injection same with same
  have digits : (toString first).toList = (toString second).toList :=
    congrArg String.toList ((String.append_right_inj _).mp same)
  change first.repr.toList = second.repr.toList at digits
  rw [Nat.toList_repr, Nat.toList_repr] at digits
  have numbers := congrArg (Nat.ofDigitChars 10 · 0) digits
  simpa using numbers

/-- Of more names than there are files one is free. -/
theorem exists_temporary (tree : FileTree) (parts : List String) :
    ∃ count ∈ List.range (tree.files.length + 1), tree.bytesAt? (temporary parts count) = none := by
  -- If all these names were taken, there would be more files than there are.
  apply Classical.byContradiction
  intro taken
  have names : (List.range (tree.files.length + 1)).map (temporary parts) ⊆
      tree.files.map (·.1) := by
    intro name member
    obtain ⟨count, among, rfl⟩ := List.mem_map.mp member
    apply Classical.byContradiction
    intro free
    exact taken ⟨count, among, bytesAt?_eq_none_iff.mpr free⟩
  have distinct : ((List.range (tree.files.length + 1)).map (temporary parts)).Nodup := by
    apply List.Pairwise.map _ _ List.nodup_range
    intro first second differ same
    exact differ (temporary_injective same)
  have bound := distinct.length_le_of_subset names
  rw [List.length_map, List.length_range, List.length_map] at bound
  omega

theorem bytesAt?_freshSibling (tree : FileTree) (parts : List String) :
    tree.bytesAt? (tree.freshSibling parts) = none := by
  obtain ⟨count, among, free⟩ := exists_temporary tree parts
  rw [freshSibling]
  cases found : ((List.range (tree.files.length + 1)).map (temporary parts)).find?
      fun name => (tree.bytesAt? name).isNone with
  | none =>
    have taken := List.find?_eq_none.mp found _ (List.mem_map_of_mem among)
    simp [free] at taken
  | some name =>
    have chosen := List.find?_some found
    simpa using chosen

theorem set_of_free (free : tree.bytesAt? parts = none) (bytes : List UInt8) :
    tree.set parts bytes = { tree with files := tree.files ++ [(parts, bytes)] } := by
  rw [bytesAt?_eq_none_iff] at free
  rw [set, if_neg]
  simpa using free

theorem set_of_there {old : List UInt8} (there : tree.bytesAt? parts = some old)
    (bytes : List UInt8) :
    tree.set parts bytes = { tree with
      files := tree.files.map fun file => if file.1 == parts then (parts, bytes) else file } := by
  have among : parts ∈ tree.files.map (·.1) := by
    apply Classical.byContradiction
    intro free
    rw [← bytesAt?_eq_none_iff, there] at free
    cases free
  rw [set, if_pos]
  simpa using among

theorem filter_of_free (free : tree.bytesAt? parts = none) :
    tree.files.filter (·.1 != parts) = tree.files := by
  rw [List.filter_eq_self]
  intro file member
  have other : file.1 ≠ parts := by
    rintro rfl
    exact bytesAt?_eq_none_iff.mp free (List.mem_map_of_mem member)
  simpa using other

/-- A file with a free name can be made and removed without a trace. -/
theorem erase_set (free : tree.bytesAt? parts = none) (bytes : List UInt8) :
    (tree.set parts bytes).erase parts = tree := by
  rw [set_of_free free, erase]
  simp [filter_of_free free]

theorem bytesAt?_set_of_ne {other : List String} (differ : other ≠ parts) (bytes : List UInt8) :
    (tree.set parts bytes).bytesAt? other = tree.bytesAt? other := by
  have kept : ∀ files : List (List String × List UInt8),
      (files.map fun file => if file.1 == parts then (parts, bytes) else file).find?
        (·.1 == other) = files.find? (·.1 == other) := by
    intro files
    induction files with
    | nil => rfl
    | cons file files ih =>
      rw [List.map_cons, List.find?_cons, List.find?_cons, ih]
      by_cases same : file.1 = parts
      · have none : (parts == other) = false := by simpa using differ.symm
        simp only [same, BEq.rfl, if_true, none]
      · simp [same]
  rw [bytesAt?, bytesAt?, set]
  split
  · rw [kept]
  · simp [List.find?_append, differ.symm]

theorem erase_set_set {sibling : List String} {old : List UInt8}
    (there : tree.bytesAt? parts = some old) (free : tree.bytesAt? sibling = none)
    (bytes : List UInt8) :
    ((tree.set sibling bytes).set parts bytes).erase sibling = tree.set parts bytes := by
  have differ : parts ≠ sibling := by
    rintro rfl
    rw [there] at free
    cases free
  have still : (tree.set sibling bytes).bytesAt? parts = some old := by
    rw [bytesAt?_set_of_ne differ, there]
  have unnamed : (tree.set parts bytes).bytesAt? sibling = none := by
    rw [bytesAt?_set_of_ne differ.symm, free]
  have kept := filter_of_free unnamed
  have last : ((sibling, bytes).1 == parts) = false := by simpa using differ.symm
  rw [set_of_there there] at kept ⊢
  rw [set_of_there still, set_of_free free, erase]
  simp only [List.map_append, List.map_singleton, last, List.filter_append]
  rw [kept]
  simp

theorem bytesAt?_set (tree : FileTree) (parts : List String) (bytes : List UInt8) :
    (tree.set parts bytes).bytesAt? parts = some bytes := by
  cases before : tree.bytesAt? parts with
  | none =>
    have missing : tree.files.find? (·.1 == parts) = none := Option.map_eq_none_iff.mp before
    rw [set_of_free before, bytesAt?, List.find?_append, missing]
    simp
  | some old =>
    have found : ∀ files : List (List String × List UInt8), files.find? (·.1 == parts) ≠ none →
        (files.map fun file => if file.1 == parts then (parts, bytes) else file).find?
          (·.1 == parts) = some (parts, bytes) := by
      intro files there
      induction files with
      | nil => exact absurd rfl there
      | cons file files ih =>
        rw [List.find?_cons] at there
        rw [List.map_cons, List.find?_cons]
        by_cases same : file.1 = parts
        · simp [same]
        · have other : (file.1 == parts) = false := by simpa using same
          rw [other] at there
          simp only [other, Bool.false_eq_true, if_false]
          exact ih there
    rw [set_of_there before, bytesAt?, found]
    · rfl
    · intro missing
      rw [bytesAt?, missing] at before
      cases before

theorem names_set {old : List UInt8} (there : tree.bytesAt? parts = some old) (bytes : List UInt8) :
    (tree.set parts bytes).files.map (·.1) = tree.files.map (·.1) := by
  rw [set_of_there there, List.map_map]
  apply List.map_congr_left
  intro file _
  by_cases same : file.1 = parts
  · simp [same]
  · simp [same]

/-- Two trees that differ at most in the bytes of one file. -/
structure Replaced (before after : FileTree) (place : List String) (bytes : List UInt8) : Prop where
  directory : after.directory = before.directory
  directories : after.directories = before.directories
  names : after.files.map (·.1) = before.files.map (·.1)
  written : after.bytesAt? place = some bytes
  others : ∀ other, other ≠ place → after.bytesAt? other = before.bytesAt? other

theorem replaced_set {old : List UInt8} (there : tree.bytesAt? parts = some old)
    (bytes : List UInt8) : Replaced tree (tree.set parts bytes) parts bytes where
  directory := rfl
  directories := rfl
  names := names_set there bytes
  written := bytesAt?_set tree parts bytes
  others _ differ := bytesAt?_set_of_ne differ bytes

theorem replace_refused (tree : FileTree) (step : ReplaceStep) (path : Path) (bytes : List UInt8) :
    tree.replace (some step) path bytes = (false, tree) := by
  have free := bytesAt?_freshSibling tree (tree.resolve path).parts
  cases step with
  | create => rfl
  | fill => exact congrArg (Prod.mk false) (erase_set free [])
  | rename => exact congrArg (Prod.mk false) (erase_set free bytes)

theorem replace_of_there {path : Path} {old : List UInt8} (located : tree.locate? path = some parts)
    (there : tree.bytesAt? parts = some old) (bytes : List UInt8) :
    tree.replace none path bytes = (true, tree.set parts bytes) := by
  have target := resolve_of_locate? located
  have free := bytesAt?_freshSibling tree parts
  rw [replace, target]
  exact congrArg (Prod.mk true) (erase_set_set there free bytes)

namespace Replaced

variable {after : FileTree} {place : List String} {bytes : List UInt8}

theorem walk?_eq (replaced : Replaced tree after place bytes) (here rest : List String) :
    after.walk? here rest = tree.walk? here rest := by
  induction rest generalizing here with
  | nil => rfl
  | cons part rest ih =>
    have same : after.hasDirectory here = tree.hasDirectory here := by
      rw [hasDirectory, hasDirectory, replaced.directory, replaced.directories]
    rw [walk?, walk?, same, ih]

theorem locate?_eq (replaced : Replaced tree after place bytes) (path : Path) :
    after.locate? path = tree.locate? path := by
  rw [locate?, locate?, replaced.directory, replaced.walk?_eq]

theorem resolve_eq (replaced : Replaced tree after place bytes) (path : Path) :
    after.resolve path = tree.resolve path := by
  rw [resolve, resolve, replaced.directory]

theorem read?_eq (replaced : Replaced tree after place bytes) {path : Path}
    (elsewhere : tree.locate? path ≠ some place) : after.read? path = tree.read? path := by
  rw [read?, read?, replaced.locate?_eq]
  cases located : tree.locate? path with
  | none => rfl
  | some other =>
    apply replaced.others
    rintro rfl
    exact elsewhere located

theorem isFile_eq (replaced : Replaced tree after place bytes) (path : Path) :
    after.isFile path = tree.isFile path := by
  have missing : ∀ other, after.bytesAt? other = none ↔ tree.bytesAt? other = none := by
    intro other
    rw [bytesAt?_eq_none_iff, bytesAt?_eq_none_iff, replaced.names]
  rw [isFile, isFile, read?, read?, replaced.locate?_eq]
  cases tree.locate? path with
  | none => rfl
  | some other =>
    rw [Option.bind_some, Option.bind_some, Bool.eq_iff_iff, Option.isSome_iff_ne_none,
      Option.isSome_iff_ne_none, Ne, Ne, missing]

end Replaced

end FileTree

end ApiSections
