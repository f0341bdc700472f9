import ApiSections.Failure.Basic
import ApiSections.File.Glob
import ApiSections.File.Path
import ApiSections.Number.Literal
import ApiSections.Text.LetterCase

/-!
Settings from named variables, checked field by field, and the cache through which a process sees
them.
-/

namespace ApiSections

/-- Named variables in the order in which they were set. -/
abbrev Environment := List (String × String)

inductive LogLevel where
  | debug
  | info
  | warning
  | error
  | critical
  deriving Repr, DecidableEq, Inhabited

namespace LogLevel

def name : LogLevel → String
  | debug => "DEBUG"
  | info => "INFO"
  | warning => "WARNING"
  | error => "ERROR"
  | critical => "CRITICAL"

def severity : LogLevel → Int
  | debug => 10
  | info => 20
  | warning => 30
  | error => 40
  | critical => 50

def ofName? (text : String) : Option LogLevel :=
  let name := String.ofList ((Text.trim text.toList).map Text.asciiCapital)
  [debug, info, warning, error, critical].find? (·.name == name)

end LogLevel

structure Settings where
  readmePath : Path
  searchPhrase : String
  repoUrl : Option String
  branch : String
  gitTimeout : Number.Binary64
  allowList : List String
  logLevel : LogLevel
  deriving Repr, DecidableEq

namespace Settings

def defaultPhrase : String := "The following is auto-generated from"

def default : Settings :=
  { readmePath := Path.ofString "README.md"
    searchPhrase := defaultPhrase
    repoUrl := none
    branch := "main"
    gitTimeout := .ofDecimal false 10 0
    allowList := ["git"]
    logLevel := .warning }

/-- What is wrong with one field. -/
structure Issue where
  field : String
  message : String
  deriving Repr, DecidableEq

def emptyText : String := "String should have at least 1 character"

def notANumber : String := "Input should be a valid number, unable to parse string as a number"

def notPositive : String := "Input should be greater than 0"

def nonEmpty (content : String) : Except String String :=
  if content.isEmpty then .error emptyText else .ok content

/-- Underscores may stand singly inside a number. -/
def dropUnderscores? (text : List Char) : Option (List Char) :=
  let pieces := Text.splitAt '_' text
  if pieces.any List.isEmpty then none else some pieces.flatten

/-- A number in ASCII without blanks. -/
def readPlain? (text : List Char) : Option Number.Binary64 :=
  if text.all fun c => 32 < c.toNat && c.toNat < 127 then Number.readBinary64 text else none

/-- A number with blanks around it, or one with underscores in it. -/
def readNumber? (content : String) : Option Number.Binary64 :=
  (readPlain? (Text.trim content.toList)).or ((dropUnderscores? content.toList).bind readPlain?)

def positive (number : Number.Binary64) : Except String Number.Binary64 :=
  if number.isPositive then .ok number else .error notPositive

/-- The parts of a list of patterns, without blanks around them and without empty ones. -/
def patterns (content : String) : List String :=
  ((Text.splitAt ',' content.toList).map fun part => String.ofList (Text.trim part)).filter
    (!·.isEmpty)

def textOf : Value → String
  | .text content => content
  | value => value.display

def readmePathOf (value : Value) : Except String Path := .ok (Path.ofString (textOf value))

def requiredText (value : Value) : Except String String := nonEmpty (textOf value)

/-- A blank address counts as none. -/
def repoUrlOf : Value → Except String (Option String)
  | .null => .ok none
  | value =>
    let content := textOf value
    .ok (if (Text.trim content.toList).isEmpty then none else some content)

def timeoutOf : Value → Except String Number.Binary64
  | .int number => positive (.ofDecimal (number < 0) number.natAbs 0)
  | .float number => positive number
  | .bool flag => positive (.ofDecimal false flag.toNat 0)
  | value => match readNumber? (textOf value) with
    | some number => positive number
    | none => .error notANumber

def allowListOf : Value → Except String (List String)
  | .list items => .ok (items.map textOf)
  | value => .ok (patterns (textOf value))

def logLevelOf (value : Value) : Except String LogLevel :=
  match LogLevel.ofName? (textOf value) with
  | some level => .ok level
  | none => .error ("Value error, Unknown log level '" ++ textOf value ++ "'")

/-- The variable of a field, whatever the case of its letters; the one set last counts. -/
def environmentValue? (environment : Environment) (field : String) : Option Value :=
  let wanted := "tsdocsync_" ++ field
  ((environment.reverse.find? fun entry => entry.1.toLower == wanted).map (·.2)).map .text

/-- A field from the values given, else from its variable, else its default. -/
def field {α : Type} (environment : Environment) (given : Fields) (fallback : α)
    (check : Value → Except String α) (name : String) : Except Issue α :=
  match (given.get? name).orElse fun _ => environmentValue? environment name with
  | some value => (check value).mapError (Issue.mk name)
  | none => .ok fallback

def issueOf {α : Type} : Except Issue α → List Issue
  | .ok _ => []
  | .error issue => [issue]

/-- Checks every field; the issues come in the order of the fields. -/
def load (environment : Environment) (given : Fields) : Except (List Issue) Settings :=
  let read {α : Type} (fallback : α) (check : Value → Except String α) (name : String) :=
    field environment given fallback check name
  let readmePath := read default.readmePath readmePathOf "readme_path"
  let searchPhrase := read default.searchPhrase requiredText "search_phrase"
  let repoUrl := read default.repoUrl repoUrlOf "repo_url"
  let branch := read default.branch requiredText "branch"
  let gitTimeout := read default.gitTimeout timeoutOf "git_timeout"
  let allowList := read default.allowList allowListOf "exec_allowlist"
  let logLevel := read default.logLevel logLevelOf "log_level"
  match readmePath, searchPhrase, repoUrl, branch, gitTimeout, allowList, logLevel with
  | .ok readmePath, .ok searchPhrase, .ok repoUrl, .ok branch, .ok gitTimeout, .ok allowList,
      .ok logLevel =>
    .ok { readmePath, searchPhrase, repoUrl, branch, gitTimeout, allowList, logLevel }
  | readmePath, searchPhrase, repoUrl, branch, gitTimeout, allowList, logLevel =>
    .error (issueOf readmePath ++ issueOf searchPhrase ++ issueOf repoUrl ++ issueOf branch ++
      issueOf gitTimeout ++ issueOf allowList ++ issueOf logLevel)

/-- The failure that reports invalid settings. -/
def failureOf (issues : List Issue) : Failure :=
  .settings "Failed to load tsdocsync settings"
    (issues.map fun issue => .object [("loc", .text issue.field), ("msg", .text issue.message)])
    (some "ValidationError")

/-- Whether a program may be started: its name or its whole path fits a pattern. -/
def isAllowed (settings : Settings) (executable : Path) : Bool :=
  settings.allowList.any fun pattern =>
    Glob.fits pattern executable.name || Glob.fits pattern (toString executable)

/-- The settings a process has loaded; a failed load leaves them as they were. -/
structure Cache where
  current : Option Settings
  deriving Repr, DecidableEq

def Cache.empty : Cache := ⟨none⟩

def Cache.get (cache : Cache) (environment : Environment) (reload : Bool) :
    Except (List Issue) Settings × Cache :=
  match cache.current, reload with
  | some settings, false => (.ok settings, cache)
  | _, _ => match load environment [] with
    | .ok settings => (.ok settings, ⟨some settings⟩)
    | .error issues => (.error issues, cache)

end Settings

end ApiSections
