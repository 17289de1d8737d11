import TokenTape.Lexer
/-!
The command line: a command with its file, and options that may stand before or after the
name of the command. An option may be given once in each of the two places, and the later
place wins. After two hyphens everything is a file name.
-/
namespace TokenTape

/-- What the program is asked to do. -/
inductive Command where
  /-- List the tokens of a file, as captions or as JSON. -/
  | tokenize (file : String) (json : Bool)
  /-- Show the tape of a file in hexadecimal. -/
  | dump (file : String)
  /-- List the tokens of standard input. -/
  | repl (json : Bool)
  deriving DecidableEq, Repr

/-- The file that the command reads, if it reads one. -/
def Command.file? : Command → Option String
  | tokenize file _ => some file
  | dump file => some file
  | repl _ => none

/-- A whole command line. -/
structure Invocation where
  command : Command
  settings : Settings
  /-- Whether a log is kept. -/
  log : Bool
  deriving DecidableEq, Repr

/-- The options given in one of the two places. -/
structure Options where
  log : Bool
  lineMarks : Bool
  capacity : Option Nat
  deriving DecidableEq, Repr

/-- The commands by name. -/
inductive CommandName where
  | tokenize | dump | repl
  deriving DecidableEq, Repr

namespace CommandName

/-- The command of a name. -/
def ofText? (text : String) : Option CommandName :=
  if text = "tokenize" then some tokenize
  else if text = "dump" then some dump
  else if text = "repl" then some repl
  else none

/-- Whether the command reads a file of which the name must be given. -/
def takesFile : CommandName → Bool
  | repl => false
  | _ => true

/-- Whether the command can list JSON. -/
def takesJson : CommandName → Bool
  | dump => false
  | _ => true

end CommandName

/-- What has been read after the name of a command. -/
structure Arguments where
  options : Options
  json : Bool
  file : Option String
  deriving DecidableEq, Repr

namespace CommandLine

/-- The options before any is given. -/
def noOptions : Options := ⟨false, false, none⟩

/-- The greatest capacity that can be asked for. -/
def greatestCapacity : Nat := 0xffffffffffffffff

/-- The number that a text of decimal digits with an optional plus sign stands for. -/
def capacity? (text : String) : Option Nat :=
  let digits := match text.toList with
    | '+' :: digits => digits
    | digits => digits
  if digits.isEmpty || !digits.all Char.isDigit then none
  else
    let n := digits.foldl (fun n digit => n * 10 + (digit.toNat - '0'.toNat)) 0
    if n ≤ greatestCapacity then some n else none

/-- Sets the capacity unless it has been set. -/
def setCapacity (options : Options) (text : String) : Option Options :=
  match options.capacity, capacity? text with
  | none, some n => some { options with capacity := some n }
  | _, _ => none

/-- The value in an argument that joins the capacity option and its value by an equals
sign. -/
def joinedCapacity? (argument : String) : Option String :=
  let name := "--scratch-capacity=".toList
  if name.isPrefixOf argument.toList then some (String.ofList (argument.toList.drop name.length))
  else none

/-- Takes one option from the front of the arguments: nothing if none stands there, an error
if it cannot be understood or has been given before. -/
def takeOption (options : Options) : List String → Except Unit (Option (Options × List String))
  | [] => .ok none
  | argument :: rest =>
    if argument = "--log" then
      if options.log then .error () else .ok (some ({ options with log := true }, rest))
    else if argument = "--line-markers" then
      if options.lineMarks then .error ()
      else .ok (some ({ options with lineMarks := true }, rest))
    else if argument = "--scratch-capacity" then
      match rest with
      | [] => .error ()
      | value :: rest =>
        match setCapacity options value with
        | some options => .ok (some (options, rest))
        | none => .error ()
    else
      match joinedCapacity? argument with
      | none => .ok none
      | some value =>
        match setCapacity options value with
        | some options => .ok (some (options, rest))
        | none => .error ()

theorem length_takeOption {options options' : Options} {arguments rest : List String}
    (taken : takeOption options arguments = .ok (some (options', rest))) :
    rest.length < arguments.length := by
  unfold takeOption at taken
  repeat' split at taken
  all_goals cases taken
  all_goals simp only [List.length_cons]
  all_goals omega

/-- Takes a file name, unless the command takes none or has one, or the name is empty. -/
def takeFile (name : CommandName) (arguments : Arguments) (file : String) : Option Arguments :=
  if name.takesFile && arguments.file.isNone && file != "" then
    some { arguments with file := some file }
  else none

/-- Takes file names to the end. -/
def takeFiles (name : CommandName) (arguments : Arguments) : List String → Option Arguments
  | [] => some arguments
  | file :: rest =>
    match takeFile name arguments file with
    | some arguments => takeFiles name arguments rest
    | none => none

/-- Reads what stands after the name of a command. -/
def readArguments (name : CommandName) (read : Arguments) (arguments : List String) :
    Option Arguments :=
  match _taken : takeOption read.options arguments with
  | .error () => none
  | .ok (some (options, rest)) => readArguments name { read with options } rest
  | .ok none =>
    match arguments with
    | [] => some read
    | argument :: rest =>
      if argument = "--" then takeFiles name read rest
      else if argument = "--json" ∧ name.takesJson then
        if read.json then none else readArguments name { read with json := true } rest
      else if argument.startsWith "-" && argument != "-" then none
      else
        match takeFile name read argument with
        | some read => readArguments name read rest
        | none => none
termination_by arguments.length
decreasing_by
  · exact length_takeOption _taken
  · simp
  · simp

/-- Reads the options before the name of the command, and tells the name and what stands
after it. -/
def readOptions (options : Options) (arguments : List String) :
    Option (Options × CommandName × List String) :=
  match _taken : takeOption options arguments with
  | .error () => none
  | .ok (some (options, rest)) => readOptions options rest
  | .ok none =>
    match arguments with
    | [] => none
    | argument :: rest => (CommandName.ofText? argument).map (options, ·, rest)
termination_by arguments.length
decreasing_by exact length_takeOption _taken

/-- The command made of a name and what stands after it. -/
def command? (name : CommandName) (arguments : Arguments) : Option Command :=
  match name with
  | .tokenize => arguments.file.map (.tokenize · arguments.json)
  | .dump => arguments.file.map .dump
  | .repl => some (.repl arguments.json)

/-- Understands a whole command line, or nothing if it breaks a rule. -/
def parse? (arguments : List String) : Option Invocation := do
  let (before, name, rest) ← readOptions noOptions arguments
  let read ← readArguments name ⟨noOptions, false, none⟩ rest
  let command ← command? name read
  let after := read.options
  let capacity := (after.capacity <|> before.capacity).getD Settings.standard.capacity
  return ⟨command, ⟨capacity, before.lineMarks || after.lineMarks⟩, before.log || after.log⟩

end CommandLine
end TokenTape
