import TokenTape.Program
/-!
The program itself. It reads the one file or the standard input that the command line asks
for, and writes what `Program.run` makes of it.
-/
namespace TokenTape

/-- What is told when the command line breaks a rule. -/
def usageText : String :=
  "error: the command line was not understood\n\n" ++
  "Usage: tokentape [--log] [--scratch-capacity N] [--line-markers] COMMAND\n\n" ++
  "Commands:\n" ++
  "  tokenize FILE [--json]  list the tokens of a file\n" ++
  "  dump FILE               show the packed tokens of a file in hexadecimal\n" ++
  "  repl [--json]           list the tokens of standard input\n"

/-- The number of a system error, which may be given negated in 32 bits. -/
def systemCode (code : UInt32) : Nat :=
  if code.toNat < 0x80000000 then code.toNat else 0x100000000 - code.toNat

/-- The reason that a system error gives, or its description if it is none of the known
reasons. -/
def readFailureOfCode (code : UInt32) (description : String) : ReadFailure :=
  match systemCode code with
  | 2 => .notFound
  | 20 => .notDirectory
  | 21 => .isDirectory
  | 36 => .nameTooLong
  | number => .other s!"{description} (os error {number})"

/-- The reason why a file could not be read or written. -/
def readFailureOf : IO.Error → ReadFailure
  | .noFileOrDirectory .. => .notFound
  | .inappropriateType _ code description => readFailureOfCode code description
  | .invalidArgument _ code description => readFailureOfCode code description
  | .permissionDenied .. => .other "Permission denied (os error 13)"
  | error => .other (toString error)

/-- Reads a file, or tells why it cannot be read. -/
def readFile (file : String) : IO (Except ReadFailure (List UInt8)) :=
  try
    return .ok (← IO.FS.readBinFile file).data.toList
  catch error => return .error (readFailureOf error)

/-- Starts a log, or tells why it cannot be started. -/
def startLog (arguments : List String) : IO (Except ReadFailure Unit) :=
  try
    return .ok (← IO.FS.writeFile Program.logFile (Program.logHead arguments))
  catch error => return .error (readFailureOf error)

/-- Reads what the command line asks for and carries it out. -/
def runWith (arguments : List String) : IO Finish := do
  let invocation := CommandLine.parse? arguments
  let file := invocation.bind fun invocation => invocation.command.file?
  let contents ← match file with
    | some file => readFile file
    | none => pure (.error .notFound)
  let input ← match invocation, file with
    | some _, none => do
      let bytes ← (← IO.getStdin).readBinToEnd
      pure (LineSource.ofBytes bytes.data.toList)
    | _, _ => pure []
  return Program.run (fun _ => contents) arguments input

end TokenTape

open TokenTape

/-- Starts the log if one is kept, and carries out the command line. -/
def main (arguments : List String) : IO UInt32 := do
  let started ← if Program.keepsLog arguments then startLog arguments else pure (.ok ())
  let finish ← match started with
    | .error failure => pure (.done 1 "" (Program.logComplaint failure))
    | .ok () => runWith arguments
  match finish with
  | .usage =>
    IO.eprint usageText
    return 2
  | .done status output complaint =>
    IO.print output
    IO.eprint complaint
    return status.toUInt32
