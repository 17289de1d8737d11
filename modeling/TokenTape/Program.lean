import TokenTape.CommandLine
import TokenTape.Files
import TokenTape.Listing
import TokenTape.Text.QuotedName
/-!
What the program does with its command line, as a function of the files it can read and of
its standard input. Nothing is written to standard output unless all of the input could be
packed.
-/
namespace TokenTape

/-- How a run of the program ends. -/
inductive Finish where
  /-- The command line breaks a rule; nothing was done. -/
  | usage
  /-- The run came to its end. -/
  | done (status : Nat) (output complaint : String)
  deriving DecidableEq, Repr

namespace Program

/-- The name under which failures in standard input are told. -/
def standardInput : String := "<stdin>"

/-- What is told when a file cannot be read. -/
def readComplaint (file : String) (failure : ReadFailure) : String :=
  s!"Error: Failed to read file {QuotedName.render file}\n\nCaused by:\n    {failure.message}\n"

/-- The name of the log, which is kept in the directory that the program was started in. -/
def logFile : String := "lexer.log"

/-- What the log starts with. -/
def logHead (arguments : List String) : String :=
  "arguments: " ++ String.intercalate " " (arguments.map QuotedName.render) ++ "\n"

/-- What is told when the log cannot be started. -/
def logComplaint (failure : ReadFailure) : String :=
  s!"Error: Failed to create {logFile}\n\nCaused by:\n    {failure.message}\n"

/-- What is told when a tape cannot be read back. -/
def replayComplaint (diagnosis : Diagnosis) : String :=
  s!"Error: Packed buffer failed to replay\n\nCaused by:\n    {diagnosis.message}\n"

/-- The text of a file. -/
def readText (read : String → Except ReadFailure (List UInt8)) (file : String) :
    Except ReadFailure String :=
  match read file with
  | .error failure => .error failure
  | .ok bytes =>
    match Utf8.decode? bytes with
    | some text => .ok text
    | none => .error .notText

/-- Lists the tokens of a tape, up to damage if there is any. -/
def list (vocabulary : Vocabulary) (json : Bool) (tape : Tape) : Finish :=
  match Listing.linesOf vocabulary json tape.cursor.run.1 with
  | (lines, none) => .done 0 (Listing.unlines lines) ""
  | (lines, some diagnosis) => .done 1 (Listing.unlines lines) (replayComplaint diagnosis)

/-- Packs a source unit with a fresh lexer and shows the tape, or tells why it could not be
packed. -/
def lexAndShow (settings : Settings) (file text : String) (source : LineSource)
    (view : Vocabulary → Tape → Finish) : Finish :=
  let (lexer, vocabulary) := Lexer.ofVocabulary .empty settings
  let analysis := lexer.analyse vocabulary file text source
  match analysis.result with
  | .ok tape => view analysis.vocabulary tape
  | .error diagnosis => .done 65 "" (diagnosis.message ++ "\n")

/-- Lexes a file and shows its tape, or tells why the file could not be read. -/
def lexFile (read : String → Except ReadFailure (List UInt8)) (settings : Settings)
    (file : String) (view : Vocabulary → Tape → Finish) : Finish :=
  match readText read file with
  | .error failure => .done 1 "" (readComplaint file failure)
  | .ok text => lexAndShow settings file text [] view

/-- Carries out a command. -/
def carryOut (read : String → Except ReadFailure (List UInt8)) (input : LineSource)
    (settings : Settings) : Command → Finish
  | .tokenize file json => lexFile read settings file (list · json)
  | .dump file => lexFile read settings file fun _ tape => .done 0 (Listing.dump tape) ""
  | .repl json => lexAndShow settings standardInput "" input (list · json)

/-- Runs the program on its arguments. -/
def run (read : String → Except ReadFailure (List UInt8)) (arguments : List String)
    (input : LineSource) : Finish :=
  match CommandLine.parse? arguments with
  | none => .usage
  | some invocation => carryOut read input invocation.settings invocation.command

/-- Whether the arguments ask for a log. -/
def keepsLog (arguments : List String) : Bool :=
  (CommandLine.parse? arguments).any Invocation.log

/-- Runs the program in a directory of a tree, and tells how the tree is left. A log is started
before anything is read. -/
def runIn (tree : FileTree) (start arguments : List String) (input : LineSource) :
    Finish × FileTree :=
  if keepsLog arguments then
    match tree.write start logFile (Utf8.encode (logHead arguments)) with
    | .error failure => (.done 1 "" (logComplaint failure), tree)
    | .ok tree => (run (tree.read start) arguments input, tree)
  else (run (tree.read start) arguments input, tree)

end Program
end TokenTape
