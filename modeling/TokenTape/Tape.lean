import TokenTape.Value.Record
/-!
A tape is the packed form of a token stream: for each token its tag and, if it carries a
value, the record of that value, with nothing between them. A line mark stands before a token
once for every line that the token is further down.
-/
namespace TokenTape

/-- A packed token stream. -/
structure Tape where
  bytes : List UInt8
  deriving DecidableEq, Repr

namespace Tape

/-- How many bytes the tape has. -/
def size (tape : Tape) : Nat := tape.bytes.length

/-- The text by which a tape is shown to a reader. -/
def debugText (tape : Tape) : String := s!"TokenBuffer \x7b len: {tape.size} \x7d"

end Tape

namespace Token

/-- What a token leaves on a tape, cut into the pieces that are written at once: line marks
one by one, the tag, and the record of the value. -/
def pieces (marks : Nat) (token : Token) : List (List UInt8) :=
  List.replicate marks [Kind.endOfLine.tag] ++ [token.kind.tag] :: token.value.toList.map Value.encode

/-- What a token leaves on a tape behind a number of line marks. -/
def encode (marks : Nat) (token : Token) : List UInt8 := (token.pieces marks).flatten

end Token
end TokenTape
