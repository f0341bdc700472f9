/-!
The options of the command line.
-/

namespace ApiSections.Command

structure Options where
  file : Option String
  search : Option String
  repoUrl : Option String
  branch : Option String
  verbose : Bool
  deriving Repr, DecidableEq

namespace Options

def empty : Options := ⟨none, none, none, none, false⟩

/-- Sets the option of a name; of two settings the later counts. -/
def set? (options : Options) (name value : String) : Option Options :=
  match name with
  | "--file" => some { options with file := some value }
  | "--search" => some { options with search := some value }
  | "--repo-url" => some { options with repoUrl := some value }
  | "--branch" => some { options with branch := some value }
  | _ => none

/-- The two sides of the first equals sign, if there is one. -/
def splitValue? (argument : List Char) : Option (String × String) :=
  let name := argument.takeWhile (· != '=')
  match argument.drop name.length with
  | _ :: value => some (String.ofList name, String.ofList value)
  | [] => none

/-- One or more short flags behind a dash. -/
def isVerboseFlags (argument : String) : Bool :=
  match argument.toList with
  | '-' :: flags => !flags.isEmpty && flags.all (· == 'v')
  | _ => false

/-- Reads arguments; none if one is unknown, misplaced or lacks its value. The argument after an
option is its value, whatever it looks like. -/
def parseFrom (options : Options) : List String → Option Options
  | [] => some options
  | ["--"] => some options
  | argument :: rest =>
    if argument == "--verbose" || isVerboseFlags argument then
      parseFrom { options with verbose := true } rest
    else match splitValue? argument.toList with
      | some (name, value) => match options.set? name value with
        | some options => parseFrom options rest
        | none => none
      | none => match rest with
        | value :: rest => match options.set? argument value with
          | some options => parseFrom options rest
          | none => none
        | [] => none

def parse (arguments : List String) : Option Options := parseFrom empty arguments

end Options

end ApiSections.Command
