import ApiSections.Value.Json
import ApiSections.Value.Display

/-!
Structured log records: the fields that every record carries, and the line that is written for one.
-/

namespace ApiSections.Log

def levelName (level : Int) : String :=
  if level == 50 then "CRITICAL"
  else if level == 40 then "ERROR"
  else if level == 30 then "WARNING"
  else if level == 20 then "INFO"
  else if level == 10 then "DEBUG"
  else if level == 0 then "NOTSET"
  else "Level " ++ toString level

/-- The attributes that a record has of its own and that no extra field may replace. -/
def ownAttributes : List String :=
  ["name", "msg", "args", "levelname", "levelno", "pathname", "filename", "module", "exc_info",
    "exc_text", "stack_info", "lineno", "funcName", "created", "msecs", "relativeCreated", "thread",
    "threadName", "processName", "process", "message", "asctime"]

/-- Attributes that never show as extra fields. -/
def hiddenAttributes : List String := "taskName" :: ownAttributes

structure Record where
  level : Int
  name : String
  message : String
  /-- The extra fields in the order in which they were attached. -/
  extra : Fields
  deriving Repr, Inhabited

/-- A named source of records with the fields bound to it. -/
structure Logger where
  name : String
  bound : Fields
  deriving Repr, Inhabited

/-- A logger with further fields; a field given again keeps its place. -/
def Logger.withFields (logger : Logger) (fields : Fields) : Logger :=
  { logger with bound := fields.foldl (fun bound field => bound.set field.1 field.2) logger.bound }

def statusOf (level : Int) : String :=
  if 40 ≤ level then "error" else if 30 ≤ level then "warning" else "success"

/-- The extra fields of a record: those of the call, the status, the bound ones, the correlation id
and the operation, each only where there is none yet. -/
def Logger.attach (logger : Logger) (correlation : Option String) (level : Int) (extra : Fields) :
    Fields :=
  let extra := if extra.has "status" || logger.bound.has "status" then extra
    else extra ++ [("status", .text (statusOf level))]
  let extra := logger.bound.foldl (fun extra field => extra.setDefault field.1 field.2) extra
  let extra := match correlation with
    | some id => extra.setDefault "correlation_id" (.text id)
    | none => extra
  extra.setDefault "operation" (.text "unknown")

def Logger.record (logger : Logger) (correlation : Option String) (level : Int) (message : String)
    (extra : Fields) : Record :=
  { level, name := logger.name, message, extra := logger.attach correlation level extra }

/-- Whether an extra field would replace an attribute of the record. -/
def Record.clashes (record : Record) : Bool :=
  record.extra.any fun field => ownAttributes.contains field.1

def isShown : Value → Bool
  | .null => false
  | _ => true

/-- The fields of the written line without the time. -/
def Record.fields (record : Record) (correlation : Option String) : Fields :=
  let named (key : String) : Fields :=
    match record.extra.get? key with
    | some value => if isShown value then [(key, value)] else []
    | none => []
  let base : Fields :=
    [("level", .text (levelName record.level)), ("name", .text record.name),
      ("message", .text record.message)] ++
    named "correlation_id" ++ named "operation" ++ named "status"
  let base := match correlation with
    | some id => base.setDefault "correlation_id" (.text id)
    | none => base
  base ++ record.extra.filter fun field =>
    !hiddenAttributes.contains field.1 && !base.has field.1 && field.1 != "ts" &&
      field.1.toList.head? != some '_' && isShown field.2

def Record.line (record : Record) (correlation : Option String) : String :=
  Value.toJson false (.object (record.fields correlation))

/-- Puts arguments in the places that a message marks; without arguments it stays as it is. -/
def fill : List Char → List Value → List Char
  | '%' :: 's' :: rest, value :: values => value.display.toList ++ fill rest values
  | '%' :: 'd' :: rest, value :: values => value.display.toList ++ fill rest values
  | '%' :: '%' :: rest, values => '%' :: fill rest values
  | c :: rest, values => c :: fill rest values
  | [], _ => []

def message (template : String) (arguments : List Value) : String :=
  if arguments.isEmpty then template else String.ofList (fill template.toList arguments)

end ApiSections.Log
