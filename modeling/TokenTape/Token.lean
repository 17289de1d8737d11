import TokenTape.Diagnosis
import TokenTape.Kind
import TokenTape.Value.Binary64
import TokenTape.Vocabulary
/-!
Tokens. A token is a kind together with the value that it carries, if it carries one; this
pair is all that a tape keeps of it. Text is carried by its handle, so all values are small
and equality of values is equality of their bits.
-/
namespace TokenTape

/-- A value carried by a token. -/
inductive Value where
  | void
  | integer (n : Int64)
  | float (x : Binary64)
  /-- The spelling of an identifier or the text between two quotes. -/
  | word (word : Word)
  deriving DecidableEq

/-- A kind and the value carried with it. -/
structure Token where
  kind : Kind
  value : Option Value
  deriving DecidableEq

namespace Token

/-- A token without a value. -/
def bare (kind : Kind) : Token := ⟨kind, none⟩

/-- A token of an atom with its value. -/
def valued (atom : Atom) (value : Value) : Token := ⟨.atom atom, some value⟩

/-- The token that ends every scan. -/
def endOfInput : Token := bare .endOfInput

/-- Whether the token ends the scan. -/
def isEnd (token : Token) : Bool := token.kind == .endOfInput

end Token

/-- What comes of asking for a token, be it from source text or from a tape: the token, or why
there is none. -/
abbrev Outcome := Except Diagnosis Token

/-- Whether nothing is to be expected after an outcome: it is the end of input or a failure. -/
def Outcome.isLast : Outcome → Bool
  | .ok token => token.isEnd
  | .error _ => true

end TokenTape
