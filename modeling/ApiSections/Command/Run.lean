import ApiSections.Command.Options
import ApiSections.Document.Update
import ApiSections.Settings

/-!
A run of the command line as a value: what it prints, how it exits and the files it leaves.
-/

namespace ApiSections.Command

/-- A line for the error stream: a log record, or a plain message. -/
inductive ErrorLine where
  | record (record : Log.Record)
  | message (text : String)

/-- What a run finds around it. -/
structure Surroundings where
  environment : Environment
  tree : FileTree
  ask : Path → Link.Answer
  /-- The id that ties the records of this run together. -/
  correlation : String

structure Outcome where
  exitCode : Nat
  stdout : List String
  stderr : List ErrorLine
  tree : FileTree

/-- The exit code for arguments that cannot be understood. -/
def usageCode : Nat := 2

def recordOf (correlation : String) (event : Event) : Log.Record :=
  event.logger.record (some correlation) event.level event.message event.extra

/-- The records of events that are severe enough to be shown. -/
def shownRecords (correlation : String) (threshold : Int) (events : List Event) :
    List ErrorLine :=
  (events.filter fun event => threshold ≤ event.level).map fun event =>
    .record (recordOf correlation event)

/-- The event that reports a failure with its payload. -/
def failureEvent (document : Path) (failure : Failure) : Event :=
  let payload := match failure.toProblem none none with
    | .ok problem => problem.render
    | .error fault => fault.message
  { logger := ⟨"tsdocsync.cli",
      [("operation", .text "update"), ("document", .text (toString document))]⟩
    level := failure.level
    message := failure.message
    extra := [("problem_details", .text payload)] }

def errorText (failure : Failure) : ErrorLine := .message ("Error: " ++ failure.message)

/-- Links are made if there is an address that is not empty. -/
def targetOf (url : Option String) (branch : String) : Option Link.Target :=
  match url with
  | some url => if url.isEmpty then none else some ⟨url, branch⟩
  | none => none

/-- The first option, or else the second; an empty one counts as missing. -/
def orElse (given : Option String) (fallback : String) : String :=
  match given with
  | some text => if text.isEmpty then fallback else text
  | none => fallback

/-- The document that a run is about. -/
def documentOf (settings : Settings) (options : Options) : Path :=
  match options.file with
  | some file => Path.ofString file
  | none => settings.readmePath

def runWith (surroundings : Surroundings) (settings : Settings) (options : Options) : Outcome :=
  let threshold := if options.verbose then debugLevel else settings.logLevel.severity
  let path := documentOf settings options
  let phrase := options.search.getD settings.searchPhrase
  let target := targetOf (options.repoUrl.or settings.repoUrl)
    (orElse options.branch settings.branch)
  let outcome := Document.update ⟨surroundings.tree, target, surroundings.ask⟩ none path phrase
  let shown := shownRecords surroundings.correlation threshold
  let records := shown outcome.pass.events
  let progress := outcome.pass.progress
  match outcome.result with
  | .ok update =>
    if update.hasMarkers then
      ⟨0, progress ++ [s!"Updated documentation for {update.count} file(s) in {path}"], records,
        outcome.tree⟩
    else
      ⟨1, progress, records ++ [.message s!"Could not find any \"{phrase}\" markers in {path}"],
        outcome.tree⟩
  | .error (.failure failure) =>
    ⟨1, progress, records ++ shown [failureEvent path failure] ++ [errorText failure],
      outcome.tree⟩
  | .error .emptyName => ⟨1, progress, records, outcome.tree⟩

/-- Runs the command line. -/
def run (surroundings : Surroundings) (arguments : List String) : Outcome :=
  match Options.parse arguments with
  | none => ⟨usageCode, [], [], surroundings.tree⟩
  | some options =>
    match Settings.load surroundings.environment [] with
    | .error issues => ⟨1, [], [errorText (Settings.failureOf issues)], surroundings.tree⟩
    | .ok settings => runWith surroundings settings options

end ApiSections.Command
