import ApiSections.Failure.Basic
import ApiSections.File.Tree
import ApiSections.Link.Linker
import ApiSections.Log.Record
import ApiSections.Module.Basic

/-!
One pass over a tree of files: what it reads, what it remembers and what stops it.
-/

namespace ApiSections

/-- A message for the log. -/
structure Event where
  logger : Log.Logger
  level : Int
  message : String
  extra : Fields
  deriving Inhabited

/-- What a pass reads. -/
structure Workspace where
  tree : FileTree
  /-- Where links lead, if there are to be any. -/
  target : Option Link.Target
  /-- Version control's answer about a file. -/
  ask : Path → Link.Answer

/-- What a pass remembers: modules by path, members by the place they are bound from, properties by
owner and name, answers of version control, and what it has said so far. -/
structure Pass where
  modules : List Module
  members : List (Place × List Member)
  properties : List (Symbol × String × Option Symbol)
  links : Link.Cache
  events : List Event
  /-- The lines that tell how far the pass is. -/
  progress : List String

def Pass.empty : Pass := ⟨[], [], [], .empty, [], []⟩

/-- What stops a pass: a failure to report, or a module specifier whose path has no last part. -/
inductive Fault where
  | failure (failure : Failure)
  | emptyName
  deriving Inhabited

/-- A step of a pass. What was remembered stays when the step stops. -/
abbrev Work := ReaderT Workspace (ExceptT Fault (StateM Pass))

namespace Work

def emit (logger : Log.Logger) (level : Int) (message : String) (extra : Fields) : Work Unit :=
  modify fun pass => { pass with events := pass.events ++ [⟨logger, level, message, extra⟩] }

/-- Reports something under the name of an operation. -/
def debug (logger operation message : String) (extra : Fields) : Work Unit :=
  emit ⟨logger, []⟩ debugLevel message (("operation", .text operation) :: extra)

def announce (line : String) : Work Unit :=
  modify fun pass => { pass with progress := pass.progress ++ [line] }

/-- The members that are bound from a place; they are bound once. -/
def membersAt (place : Place) (members : List Member) : Work (List Member) := do
  match (← get).members.find? (·.1 == place) with
  | some (_, known) => return known
  | none =>
    modify fun pass => { pass with members := pass.members ++ [(place, members)] }
    return members

/-- What was remembered about a member of a symbol. -/
def remembered (owner : Symbol) (name : String) : Work (Option (Option Symbol)) := do
  return ((← get).properties.find? fun (other, known, _) => known == name && other == owner).map
    (·.2.2)

def remember (owner : Symbol) (name : String) (found : Option Symbol) : Work Unit :=
  modify fun pass => { pass with properties := pass.properties ++ [(owner, name, found)] }

/-- Runs a step; the result comes with what the pass remembers afterwards. -/
def execute {α : Type} (work : Work α) (workspace : Workspace) (pass : Pass) :
    Except Fault α × Pass :=
  (work.run workspace).run.run pass

end Work

end ApiSections
