import TokenTape.Reading.LineSource
/-!
The inside of a string or a block comment. A closer decides, one character at a time and with
one bit of memory, where the body ends; `Body.read` follows it through the current text and,
when that runs out, through further replies of the line source. The memory lasts across
replies, so it does not matter where the text is cut.
-/
namespace TokenTape

/-- What is remembered after one more character, or nothing if that character closes the
body. The memory starts out unset. -/
abbrev Closer := Bool → Char → Option Bool

/-- Closes at a quote that no backslash protects. The memory is set after a backslash that
protects the next character. -/
def Closer.quote : Closer
  | true, _ => some false
  | false, c => if c = '"' then none else some (c == '\\')

/-- Closes at a slash right after an asterisk. The memory is set after an asterisk. -/
def Closer.comment : Closer
  | afterAsterisk, c => if afterAsterisk && c == '/' then none else some (c == '*')

/-- How the reading of a body ended. -/
inductive BodyEnd where
  | closed
  /-- All input ended first. -/
  | exhausted
  /-- The source failed first. -/
  | failed (reason : String)
  deriving DecidableEq, Repr

/-- A body and what is left behind it. -/
structure Body where
  ending : BodyEnd
  /-- The characters of the body without the one that closed it, the latest first. -/
  reversed : List Char
  /-- The rest of the text that the body ended in. -/
  text : List Char
  source : LineSource
  deriving DecidableEq, Repr

namespace Body

/-- Reads on from a text and the replies after it, with what was read before. -/
def read (closer : Closer) (memory : Bool) (reversed : List Char) :
    List Char → LineSource → Body
  | c :: text, source =>
    match closer memory c with
    | none => ⟨.closed, reversed, text, source⟩
    | some memory => read closer memory (c :: reversed) text source
  | [], [] => ⟨.exhausted, reversed, [], []⟩
  | [], .failure reason :: source => ⟨.failed reason, reversed, [], source⟩
  | [], .line more :: source => read closer memory reversed more.toList source
termination_by text source => (source.length, text.length)

/-- The body in reading order. -/
def content (body : Body) : String := String.ofList body.reversed.reverse

/-- How many lines the body goes down. -/
def newlines (body : Body) : Nat := body.reversed.count '\n'

end Body
end TokenTape
