import ApiSections.Settings

/-!
A small command interpreter: commands in sequence, quoting, variables, positional arguments and a
few built-in commands, with the two output channels apart.
-/

namespace ApiSections.Shell

/-- What a script sees. -/
structure Scope where
  environment : Environment
  arguments : List String
  directory : String

/-- What a script has produced so far. -/
structure Output where
  stdout : List Char
  stderr : List Char
  /-- The exit code, or below zero the signal that ended the script. -/
  code : Int
  /-- Seconds that it has slept. -/
  slept : Number.Binary64
  deriving Repr, DecidableEq

def Output.empty : Output := ⟨[], [], 0, .finite false 0 0⟩

def isNameChar (c : Char) : Bool := c.isAlphanum || c == '_'

def valueOf (scope : Scope) (name : String) : Option String :=
  (scope.environment.reverse.find? (·.1 == name)).map (·.2)

/-- The value behind a dollar sign and what follows it. -/
def expand (scope : Scope) (rest : List Char) : List Char × List Char :=
  match rest with
  | '{' :: inside =>
    let name := inside.takeWhile isNameChar
    let after := inside.dropWhile isNameChar
    let fallback := (after.takeWhile (· != '}')).drop 1
    let value := (valueOf scope (String.ofList name)).map String.toList
    (value.getD fallback, (after.dropWhile (· != '}')).drop 1)
  | c :: after =>
    if c.isDigit then
      let index := c.toNat - 48
      ((scope.arguments[index]?.getD "").toList, after)
    else
      let name := rest.takeWhile isNameChar
      if name.isEmpty then ('$' :: [], rest)
      else (((valueOf scope (String.ofList name)).getD "").toList, rest.dropWhile isNameChar)
  | [] => (['$'], [])

inductive Quoting where
  | bare
  | single
  | double
  deriving Repr, DecidableEq

/-- A word being read, if one has begun, the words before it, and whether the output goes to the
error channel. -/
structure Reading where
  words : List (List Char)
  current : Option (List Char)
  toError : Bool

def Reading.start : Reading := ⟨[], none, false⟩

def Reading.push (reading : Reading) (text : List Char) : Reading :=
  { reading with current := some (reading.current.getD [] ++ text) }

def Reading.close (reading : Reading) : Reading :=
  match reading.current with
  | some word => { reading with words := reading.words ++ [word], current := none }
  | none => reading

/-- Words one after the other, the first of them as a part of the word being read. -/
def Reading.pushAll (reading : Reading) : List (List Char) → Reading
  | [] => reading
  | first :: others =>
    others.foldl (fun reading word => reading.close.push word) (reading.push first)

/-- Sends the output to the error channel; a channel number in front is no word. -/
def Reading.redirect (reading : Reading) : Reading :=
  let reading := if reading.current == some ['1'] then { reading with current := none } else reading
  { reading.close with toError := true }

/-- Splits one command into words. -/
def wordsFrom (scope : Scope) : Nat → Quoting → Reading → List Char → Reading
  | 0, _, reading, _ => reading.close
  | _, _, reading, [] => reading.close
  | fuel + 1, .single, reading, c :: rest =>
    if c = '\'' then wordsFrom scope fuel .bare reading rest
    else wordsFrom scope fuel .single (reading.push [c]) rest
  | fuel + 1, .double, reading, '"' :: rest => wordsFrom scope fuel .bare reading rest
  | fuel + 1, .double, reading, '$' :: '@' :: rest =>
    wordsFrom scope fuel .double (reading.pushAll (scope.arguments.tail.map String.toList)) rest
  | fuel + 1, .double, reading, '\\' :: c :: rest =>
    let kept := if c == '"' || c == '\\' || c == '$' || c == '`' then [c] else ['\\', c]
    wordsFrom scope fuel .double (reading.push kept) rest
  | fuel + 1, .bare, reading, '\\' :: c :: rest =>
    wordsFrom scope fuel .bare (reading.push [c]) rest
  | fuel + 1, .bare, reading, '\'' :: rest => wordsFrom scope fuel .single (reading.push []) rest
  | fuel + 1, .bare, reading, '"' :: '$' :: '@' :: rest =>
    wordsFrom scope fuel .double reading ('$' :: '@' :: rest)
  | fuel + 1, .bare, reading, '"' :: rest => wordsFrom scope fuel .double (reading.push []) rest
  | fuel + 1, .bare, reading, '>' :: '&' :: '2' :: rest =>
    wordsFrom scope fuel .bare reading.redirect rest
  | fuel + 1, quoting, reading, '$' :: rest =>
    let (value, after) := expand scope rest
    if quoting = .bare then
      wordsFrom scope fuel quoting (reading.pushAll (Text.words value)) after
    else wordsFrom scope fuel quoting (reading.push value) after
  | fuel + 1, quoting, reading, c :: rest =>
    if quoting = .bare && Text.isBlank c then wordsFrom scope fuel quoting reading.close rest
    else wordsFrom scope fuel quoting (reading.push [c]) rest

/-- When a command runs: always, or by the code of the one before it. -/
inductive Condition where
  | always
  | afterSuccess
  | afterFailure
  deriving Repr, DecidableEq

def Condition.holds : Condition → Int → Bool
  | always, _ => true
  | afterSuccess, code => code == 0
  | afterFailure, code => code != 0

/-- Cuts a script at the separators outside quotes; `condition` is that of the command being
read. -/
def commandsFrom : Quoting → Condition → List Char → List Char → List (Condition × List Char)
  | _, condition, current, [] => [(condition, current.reverse)]
  | .bare, condition, current, '&' :: '&' :: rest =>
    (condition, current.reverse) :: commandsFrom .bare .afterSuccess [] rest
  | .bare, condition, current, '|' :: '|' :: rest =>
    (condition, current.reverse) :: commandsFrom .bare .afterFailure [] rest
  | .bare, condition, current, c :: rest =>
    if c = ';' ∨ c = '\n' then (condition, current.reverse) :: commandsFrom .bare .always [] rest
    else commandsFrom (if c = '\'' then .single else if c = '"' then .double else .bare) condition
      (c :: current) rest
  | .single, condition, current, c :: rest =>
    commandsFrom (if c = '\'' then .bare else .single) condition (c :: current) rest
  | .double, condition, current, c :: rest =>
    commandsFrom (if c = '"' then .bare else .double) condition (c :: current) rest

def escapes : List Char → List Char
  | '\\' :: 'n' :: rest => '\n' :: escapes rest
  | '\\' :: 'r' :: rest => '\r' :: escapes rest
  | '\\' :: 't' :: rest => '\t' :: escapes rest
  | '\\' :: '\\' :: rest => '\\' :: escapes rest
  | c :: rest => c :: escapes rest
  | [] => []

/-- One pass over a format: the text and the arguments left. -/
def formatOnce : List Char → List (List Char) → List Char × List (List Char)
  | '%' :: '%' :: rest, arguments =>
    let (text, left) := formatOnce rest arguments
    ('%' :: text, left)
  | '%' :: 's' :: rest, arguments =>
    let (text, left) := formatOnce rest arguments.tail
    (arguments.headD [] ++ text, left)
  | '%' :: 'd' :: rest, arguments =>
    let (text, left) := formatOnce rest arguments.tail
    ((if (arguments.headD []).isEmpty then ['0'] else arguments.headD []) ++ text, left)
  | c :: rest, arguments =>
    let (text, left) := formatOnce rest arguments
    (c :: text, left)
  | [], arguments => ([], arguments)

/-- Repeats the format until the arguments are used up. -/
def format (template : List Char) : Nat → List (List Char) → List Char
  | 0, _ => []
  | fuel + 1, arguments =>
    let (text, left) := formatOnce template arguments
    if left.isEmpty || left.length == arguments.length then text
    else text ++ format template fuel left

def joinWords : List (List Char) → List Char
  | [] => []
  | [word] => word
  | word :: rest => word ++ ' ' :: joinWords rest

/-- What one command writes, the code it ends with and how long it sleeps. -/
def builtin (scope : Scope) (name : String) (arguments : List (List Char)) :
    List Char × Int × Option Number.Binary64 :=
  match name with
  | "printf" =>
    let template := escapes (arguments.headD [])
    (format template (arguments.length + 1) arguments.tail, 0, none)
  | "echo" => (escapes (joinWords arguments) ++ ['\n'], 0, none)
  | "pwd" => (scope.directory.toList ++ ['\n'], 0, none)
  | "sleep" => ([], 0, Number.readBinary64 (arguments.headD []))
  | "false" => ([], 1, none)
  | "cat" | "true" | ":" => ([], 0, none)
  | _ => ([], 127, none)

/-- The number of the signal that an argument names. -/
def signalOf (argument : List Char) : Nat :=
  match String.ofList argument with
  | "-HUP" => 1
  | "-INT" => 2
  | "-QUIT" => 3
  | "-ABRT" => 6
  | "-KILL" => 9
  | "-SEGV" => 11
  | _ => (Number.readDigits 10 argument.tail).getD 15

/-- The code with which a command ends the whole script, if it does. -/
def ending? (name : String) (arguments : List (List Char)) (code : Int) : Option Int :=
  match name with
  | "exit" => match Number.readDigits 10 (arguments.headD []) with
    | some code => some (code % 256 : Nat)
    | none => some code
  | "kill" =>
    if arguments.getLast? == some ['$', '$'] then some (-(signalOf (arguments.headD []) : Int))
    else none
  | _ => none

def runCommands (scope : Scope) (output : Output) : List (Condition × List Char) → Output
  | [] => output
  | (condition, command) :: rest =>
    if !condition.holds output.code then runCommands scope output rest
    else
      let reading := wordsFrom scope (2 * command.length + 2) .bare .start command
      match reading.words with
      | [] => runCommands scope output rest
      | name :: arguments =>
        let name := String.ofList name
        match ending? name arguments output.code with
        | some code => { output with code }
        | none =>
          let (text, code, slept) := builtin scope name arguments
          let missing :=
            if code == 127 then ("/bin/sh: 1: " ++ name ++ ": not found\n").toList else []
          runCommands scope
            { stdout := if reading.toError then output.stdout else output.stdout ++ text
              stderr := output.stderr ++ (if reading.toError then text else []) ++ missing
              code
              slept := slept.getD output.slept }
            rest

/-- Runs a script with the given positional arguments, the name of the script first. -/
def run (scope : Scope) (script : String) : Output :=
  runCommands scope .empty (commandsFrom .bare .always [] script.toList)

end ApiSections.Shell
