import ApiSections.File.Path
import ApiSections.Link.Url
import ApiSections.Text.Blank
import ApiSections.Text.Lines

/-!
Deep links to declarations: where a file stands in its repository is asked once per file.
-/

namespace ApiSections.Link

/-- The answer of version control about one file: an exit code and output, or why there is none. -/
inductive Answer where
  | output (code : Int) (text : String)
  | failed (reason : String)
  deriving Repr, DecidableEq

/-- The path of a file inside its repository, by the first line of a successful answer. -/
def Answer.path? : Answer → Option String
  | .failed _ => none
  | .output code text =>
    let shown := Text.trim text.toList
    if code = 0 ∧ shown ≠ [] then some (String.ofList (shown.takeWhile (!Text.isLineBreak ·)))
    else none

/-- Where links lead. -/
structure Target where
  repoUrl : String
  branch : String
  deriving Repr, DecidableEq

/-- The answers so far, by resolved path, the latest last. -/
structure Cache where
  paths : List (Path × Option String)
  deriving Repr, DecidableEq

def Cache.empty : Cache := ⟨[]⟩

def Cache.get? (cache : Cache) (path : Path) : Option (Option String) :=
  (cache.paths.find? (·.1 == path)).map (·.2)

/-- The files that were asked about, in order. -/
def Cache.asked (cache : Cache) : List Path := cache.paths.map (·.1)

/-- The path inside the repository; `some` answer as second result if it was asked for just now. -/
def Cache.relative (cache : Cache) (ask : Path → Answer) (path : Path) :
    Option String × Option Answer × Cache :=
  match cache.get? path with
  | some known => (known, none, cache)
  | none =>
    let answer := ask path
    (answer.path?, some answer, ⟨cache.paths ++ [(path, answer.path?)]⟩)

def Target.link (target : Target) (relative : Option String) (line : Int) : Option String :=
  relative.map fun path => deepLink target.repoUrl path line target.branch

end ApiSections.Link
