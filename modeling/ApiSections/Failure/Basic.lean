import ApiSections.Failure.Problem
import ApiSections.Value.Display

/-!
The failures that a run can report, with the code, status and severity of each.
-/

namespace ApiSections

inductive FailureCode where
  | runtimeError
  | configurationError
  | settingsInvalid
  | sourceUnreadable
  | noExports
  | aliasUnresolved
  | typeUnavailable
  deriving Repr, DecidableEq, Inhabited

namespace FailureCode

def slug : FailureCode → String
  | runtimeError => "runtime-error"
  | configurationError => "configuration-error"
  | settingsInvalid => "settings-invalid"
  | sourceUnreadable => "source-unreadable"
  | noExports => "no-exports"
  | aliasUnresolved => "alias-unresolved"
  | typeUnavailable => "type-unavailable"

def all : List FailureCode :=
  [runtimeError, configurationError, settingsInvalid, sourceUnreadable, noExports, aliasUnresolved,
    typeUnavailable]

def ofSlug? (slug : String) : Option FailureCode := all.find? (·.slug == slug)

def typeUri (code : FailureCode) : String := "https://tsdocsync.dev/problems/" ++ code.slug

end FailureCode

/-- The families of failures. -/
inductive FailureKind where
  | general
  | configuration
  | settings
  | sourceLoad
  | noExports
  | unresolved
  | typeDisplay
  deriving Repr, DecidableEq, Inhabited

/-- The title under which a family is reported. -/
def FailureKind.title : FailureKind → String
  | .general => "DocSyncError"
  | .configuration => "ConfigurationError"
  | .settings => "SettingsError"
  | .sourceLoad => "SourceLoadError"
  | .noExports => "NoExportsError"
  | .unresolved => "AliasResolutionError"
  | .typeDisplay => "TypeRenderError"

/-- Severities on the scale of log levels. -/
def errorLevel : Int := 40

def warningLevel : Int := 30

def infoLevel : Int := 20

def debugLevel : Int := 10

structure Failure where
  kind : FailureKind
  message : String
  code : FailureCode
  status : Int
  level : Int
  context : Fields
  /-- The kind of the failure behind this one. -/
  cause : Option String
  deriving Repr, Inhabited

namespace Failure

def general (message : String) (code : FailureCode) (status level : Int) (context : Fields)
    (cause : Option String) : Failure :=
  { kind := .general, message, code, status, level, context, cause }

def configuration (message : String) (cause : Option String) (context : Fields) : Failure :=
  { kind := .configuration, message, code := .configurationError, status := 500,
    level := errorLevel, context, cause }

def settings (message : String) (errors : List Value) (cause : Option String) : Failure :=
  { kind := .settings, message, code := .settingsInvalid, status := 500, level := errorLevel,
    context := if errors.isEmpty then [] else [("errors", .list errors)], cause }

def unreadable (path : String) (cause : Option String) : Failure :=
  { kind := .sourceLoad, message := "Could not read " ++ path, code := .sourceUnreadable,
    status := 404, level := errorLevel, context := [("path", .text path)], cause }

def noExports (path : String) : Failure :=
  { kind := .noExports, message := "No exports found in " ++ path, code := .noExports,
    status := 422, level := errorLevel, context := [("path", .text path)], cause := none }

def unresolved (name reason : String) : Failure :=
  { kind := .unresolved, message := "Cannot resolve alias '" ++ name ++ "': " ++ reason,
    code := .aliasUnresolved, status := 422, level := debugLevel,
    context := [("name", .text name), ("reason", .text reason)], cause := none }

def typeDisplay (name reason : String) : Failure :=
  { kind := .typeDisplay, message := "Cannot render type of '" ++ name ++ "': " ++ reason,
    code := .typeUnavailable, status := 422, level := debugLevel,
    context := [("name", .text name), ("reason", .text reason)], cause := none }

/-- A document that could not be put in place. -/
def unwritable (path : String) : Failure :=
  general ("Could not write " ++ path) .runtimeError 500 errorLevel [("path", .text path)]
    (some "OSError")

def orElse (given : Option String) (fallback : String) : String :=
  match given with
  | some text => if text.isEmpty then fallback else text
  | none => fallback

/-- The payload of a failure; every context value is shown as text. -/
def toProblem (failure : Failure) (occurrence title : Option String) :
    Except StatusOutOfRange Problem :=
  Problem.check
    { type := failure.code.typeUri
      title := orElse title failure.kind.title
      status := failure.status
      detail := failure.message
      occurrence := orElse occurrence "urn:tsdocsync:error"
      code := some failure.code.slug
      extensions := failure.context.map fun field => (field.1, .text field.2.display) }

def describe (failure : Failure) : String :=
  failure.kind.title ++ "[" ++ failure.code.slug ++ "]: " ++ failure.message ++
    match failure.cause with
    | some cause => " (caused by: " ++ cause ++ ")"
    | none => ""

end Failure

end ApiSections
