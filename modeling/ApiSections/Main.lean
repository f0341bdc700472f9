import ApiSections.Command.Run
import ApiSections.Tool.Run

/-!
The program: it reads the sources below the working directory, runs the command line on them and
writes back what has changed.
-/

namespace ApiSections.Program

def variableNames : List String :=
  ["README_PATH", "SEARCH_PHRASE", "REPO_URL", "BRANCH", "GIT_TIMEOUT", "EXEC_ALLOWLIST",
    "LOG_LEVEL"].map ("TSDOCSYNC_" ++ ·)

def readEnvironment : IO Environment := do
  let mut environment := []
  for name in variableNames do
    if let some value ← IO.getEnv name then
      environment := environment ++ [(name, value)]
  return environment

/-- Directories without sources of their own. -/
def skippedDirectories : List String := [".git", "node_modules"]

def isSource (path : Path) : Bool :=
  path.suffix == ".mjs" || path.suffix == ".cjs" || Module.scriptSuffixes.contains path.suffix

/-- The files at or below an entry that are wanted, with their bytes. -/
partial def readEntry (isWanted : Path → Bool) (entry : IO.FS.DirEntry) :
    IO (List (Path × List UInt8)) := do
  if ← entry.path.isDir then
    if skippedDirectories.contains entry.fileName then return []
    let mut files := []
    for child in ← entry.path.readDir do
      files := files ++ (← readEntry isWanted child)
    return files
  let path := Path.ofString entry.path.toString
  if isWanted path then return [(path, (← IO.FS.readBinFile entry.path).toList)]
  return []

def readTree (arguments : List String) (environment : Environment) : IO FileTree := do
  let here ← IO.currentDir
  let directory := Path.ofString here.toString
  let document := match Command.Options.parse arguments, Settings.load environment [] with
    | some options, .ok settings => some (directory.resolve (Command.documentOf settings options))
    | _, _ => none
  let mut tree := FileTree.empty directory
  for entry in ← here.readDir do
    for (path, bytes) in ← readEntry (fun path => isSource path || some path == document) entry do
      tree := tree.put path.parts bytes
  return tree

/-- An id of thirty-two hexadecimal digits. -/
def freshId : IO String := do
  let mut digits := []
  for _ in [0:32] do
    digits := Nat.digitChar (← IO.rand 0 15) :: digits
  return String.ofList digits

def writeChanges (before after : FileTree) : IO Unit := do
  for (parts, bytes) in after.files do
    if before.bytesAt? parts != some bytes then
      IO.FS.writeBinFile (toString (Path.mk "/" parts)) bytes.toByteArray

def printError : Command.ErrorLine → IO Unit
  | .record record => IO.eprintln (record.line none)
  | .message text => IO.eprintln text

/-- Version control is not asked here, so headings carry no links. -/
def noAnswer (_ : Path) : Link.Answer := .failed Tool.Reason.notStarted.message

def run (arguments : List String) : IO UInt32 := do
  let environment ← readEnvironment
  let tree ← readTree arguments environment
  let outcome := Command.run ⟨environment, tree, noAnswer, ← freshId⟩ arguments
  for line in outcome.stdout do
    IO.println line
  for line in outcome.stderr do
    printError line
  writeChanges tree outcome.tree
  return outcome.exitCode.toUInt32

end ApiSections.Program

def main (arguments : List String) : IO UInt32 := ApiSections.Program.run arguments
