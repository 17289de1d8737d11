import TokenTape.Diagnosis
import TokenTape.Kind.Symbol
import TokenTape.Value.Numeral
/-!
Lexemes: what stands in source text between blanks and comments, before any word is looked
up.
-/
namespace TokenTape

/-- One piece of source text that makes a token. -/
inductive Lexeme where
  /-- An identifier or a keyword. -/
  | word (spelling : String)
  | numeral (numeral : Numeral)
  /-- The text between two quotes, just as it is written. -/
  | string (text : String)
  /-- The single ASCII character of a character literal. -/
  | character (c : Char)
  | symbol (symbol : Symbol)
  | endOfInput
  deriving DecidableEq

/-- Why no lexeme could be read. -/
inductive Obstacle where
  | fault (fault : Fault)
  | unreadable (reason : String)
  deriving DecidableEq, Repr

/-- Blanks separate lexemes and mean nothing else. -/
def isBlank (c : Char) : Bool :=
  c == ' ' || c == '\t' || c == '\n' || c == '\x0b' || c == '\x0c' || c == '\r'

/-- A word starts with an ASCII letter, an underscore or a number sign. -/
def startsWord (c : Char) : Bool := c.isAlpha || c == '_' || c == '#'

/-- A word goes on with ASCII letters, digits and underscores. -/
def continuesWord (c : Char) : Bool := c.isAlphanum || c == '_'

/-- The line that is reached after a character. -/
def lineAfter (line : Nat) (c : Char) : Nat := if c = '\n' then line + 1 else line

end TokenTape
