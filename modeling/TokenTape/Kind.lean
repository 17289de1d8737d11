import TokenTape.Kind.Symbol
import TokenTape.Kind.Keyword
/-!
The kinds of token and the byte that stands for each on a tape. The tags run without a gap
from symbols over atoms to keywords and end with the two marks; `ofTag?` inverts `tag`.
-/
namespace TokenTape

/-- The kinds whose tokens carry a value. -/
inductive Atom where
  | identifier | integer | float | string | character
  deriving DecidableEq, Repr

namespace Atom

/-- Every atom, in the order of the constructors. -/
def all : List Atom := [identifier, integer, float, string, character]

/-- The name under which the atom appears in listings. -/
def name : Atom → String
  | identifier => "IDENTIFIER"
  | integer => "INTEGER_CONSTANT"
  | float => "FP_CONSTANT"
  | string => "STRING_CONSTANT"
  | character => "CHARACTER_CONSTANT"

end Atom

/-- What a token is, apart from the value it may carry. -/
inductive Kind where
  | symbol (symbol : Symbol)
  | atom (atom : Atom)
  | keyword (keyword : Keyword)
  /-- A mark on a tape: the tokens after it stand at least one line further down. -/
  | endOfLine
  /-- The end of all input, and the last byte of a tape. -/
  | endOfInput
  deriving DecidableEq, Repr

namespace Kind

/-- Every kind, in the order of the tags. -/
def all : List Kind :=
  Symbol.all.map symbol ++ Atom.all.map atom ++ Keyword.all.map keyword ++ [endOfLine, endOfInput]

/-- The byte that stands for the kind on a tape. -/
def tag : Kind → UInt8
  | symbol s => s.ctorIdx.toUInt8
  | atom a => 35 + a.ctorIdx.toUInt8
  | keyword k => 40 + k.ctorIdx.toUInt8
  | endOfLine => 65
  | endOfInput => 66

/-- The kind that a byte stands for; bytes above the last tag stand for none. -/
def ofTag? (byte : UInt8) : Option Kind :=
  if byte < 35 then Symbol.all[byte.toNat]?.map symbol
  else if byte < 40 then Atom.all[byte.toNat - 35]?.map atom
  else if byte < 65 then Keyword.all[byte.toNat - 40]?.map keyword
  else if byte = 65 then some endOfLine
  else if byte = 66 then some endOfInput
  else none

/-- Whether a value record follows the tag on a tape. -/
def hasValue : Kind → Bool
  | atom _ => true
  | _ => false

/-- The name under which the kind appears in listings. -/
def name : Kind → String
  | symbol s => s.name
  | atom a => a.name
  | keyword k => k.name
  | endOfLine => "END_OF_LINE"
  | endOfInput => "EOF"

/-- The kind that a name in a listing belongs to. -/
def ofName? (name : String) : Option Kind :=
  all.find? (·.name == name)

theorem ofTag?_tag (kind : Kind) : ofTag? kind.tag = some kind := by
  match kind with
  | symbol s => cases s <;> rfl
  | atom a => cases a <;> rfl
  | keyword k => cases k <;> rfl
  | endOfLine => rfl
  | endOfInput => rfl

/-- A byte that stands for a kind is that kind's tag, so no kind has two. -/
theorem tag_of_ofTag? {byte : UInt8} {kind : Kind} (found : ofTag? byte = some kind) :
    kind.tag = byte := by
  have every : ∀ b : Fin 256, ∀ k ∈ ofTag? (UInt8.ofNat b), k.tag = UInt8.ofNat b := by
    decide +kernel
  have := every ⟨byte.toNat, byte.toNat_lt⟩ kind (by simpa using found)
  simpa using this

end Kind
end TokenTape
