import ApiSections.Tool.Shell
import ApiSections.Text.Lines

/-!
Starting tools: which programs may run, what they see of the environment, and how each way of
failing is reported.
-/

namespace ApiSections.Tool

/-- Variables that every tool sees. -/
def baselineKeys : List String :=
  ["HOME", "PATH", "LANG", "LC_ALL", "LC_CTYPE", "LC_MESSAGES", "TZ"]

def passes (allowed : List String) (name : String) : Bool :=
  allowed.contains name || "GIT_".toList.isPrefixOf name.toList

/-- Sets a variable in its old place, or at the end. -/
def setVariable (environment : Environment) (entry : String × String) : Environment :=
  if environment.any (·.1 == entry.1) then
    environment.map fun old => if old.1 == entry.1 then entry else old
  else environment ++ [entry]

/-- The environment of a tool: the variables that pass, and the overrides. -/
def sanitise (allowed : List String) (environment overrides : Environment) : Environment :=
  overrides.foldl setVariable (environment.filter fun entry => passes allowed entry.1)

structure Request where
  command : List String
  directory : Option Path
  overrides : Environment
  timeout : Option Number.Binary64
  check : Bool

structure Completed where
  code : Int
  stdout : String
  stderr : String
  deriving Repr, DecidableEq

inductive Outcome where
  | notStarted
  | timedOut
  | completed (result : Completed)
  deriving Repr, DecidableEq

/-- Where tools are found and run. -/
structure Host where
  environment : Environment
  search : String → Option Path
  start : Path → List String → Environment → Option Path → Option Number.Binary64 → Outcome

structure Result where
  command : List String
  completed : Completed
  deriving Repr, DecidableEq

inductive Reason where
  | emptyCommand
  | notFound (executable : String)
  | notPermitted (executable : Path)
  | notStarted
  | timedOut
  | failed (completed : Completed)
  deriving Repr, DecidableEq

def Reason.message : Reason → String
  | .emptyCommand => "Command must contain at least one argument"
  | .notFound executable =>
    "Executable '" ++ executable ++ "' could not be resolved to an absolute path"
  | .notPermitted executable =>
    "Executable '" ++ toString executable ++ "' is not permitted by TSDOCSYNC_EXEC_ALLOWLIST"
  | .notStarted => "Executable could not be started"
  | .timedOut => "Subprocess timed out"
  | .failed _ => "Subprocess returned a non-zero exit status"

/-- The absolute path of a program that may run. -/
def authorise (host : Host) (settings : Settings) (executable : String) : Except Reason Path :=
  let path := Path.ofString executable
  let found := if path.isAbsolute then some path else host.search executable
  match found with
  | none => .error (.notFound executable)
  | some path => if settings.isAllowed path then .ok path else .error (.notPermitted path)

def run (host : Host) (settings : Settings) (request : Request) : Except Reason Result :=
  match request.command with
  | [] => .error .emptyCommand
  | executable :: arguments => do
    let path ← authorise host settings executable
    match host.start path arguments (sanitise baselineKeys host.environment request.overrides)
        request.directory request.timeout with
    | .notStarted => .error .notStarted
    | .timedOut => .error .timedOut
    | .completed result =>
      if request.check && result.code != 0 then .error (.failed result)
      else .ok { command := toString path :: arguments, completed := result }

/-- Whether a run of the given length exceeds a limit. -/
def exceeds (slept limit : Number.Binary64) : Bool :=
  match slept, limit with
  | .finite _ mantissa exponent, .finite negative bound scale =>
    let (num, den) := Number.scaled mantissa 1 2 exponent
    let (most, unit) := Number.scaled bound 1 2 scale
    negative || most * den ≤ num * unit && num != 0
  | _, _ => false

def asText (output : List Char) : String := String.ofList (Text.unifyNewlines output)

def shellPaths : List String := ["/bin/sh", "/usr/bin/sh"]

def shellDirectories : List String := ["/", "/tmp", "/usr", "."]

/-- A host with one program, a command interpreter, and a few directories. -/
def shellHost (environment : Environment) : Host where
  environment := environment
  search name := if name == "sh" then some (Path.ofString "/usr/bin/sh") else none
  start executable arguments environment directory timeout :=
    let directory := directory.getD (Path.ofString "/")
    if !shellPaths.contains (toString executable) ||
        !shellDirectories.contains (toString directory) then
      .notStarted
    else
      let script := match arguments with
        | "-c" :: script :: _ => script
        | _ => ""
      let positional := match arguments with
        | "-c" :: _ :: [] => [toString executable]
        | "-c" :: _ :: rest => rest
        | _ => [toString executable]
      let output := Shell.run ⟨environment, positional, toString directory⟩ script
      if (timeout.map (exceeds output.slept)).getD false then .timedOut
      else .completed ⟨output.code, asText output.stdout, asText output.stderr⟩

end ApiSections.Tool
