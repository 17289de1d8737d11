import TokenTape.Json
import TokenTape.Token
/-!
Tokens as JSON. As data, a token is an object with the name of the kind and the value, which is
itself tagged by its own kind. In a listing it is an object with the line that the cursor has
reached, and the value stands there as such, a word by its text.
-/
namespace TokenTape

/-- A value with its kind as the only key; the void value is its name alone. -/
def Value.json : Value → Json
  | .void => .string "Void"
  | .integer n => .object [("Int", .integer n.toInt)]
  | .float x => .object [("Float", .number x)]
  | .word w => .object [("Str", .integer w.raw.toNat)]

/-- The kind and the value of a token, or null in place of the value. -/
def Token.json (token : Token) : Json :=
  .object [("token_type", .string token.kind.name),
    ("value", (token.value.map Value.json).getD .null)]

namespace Listing

/-- A value in a JSON listing, with its word spelled out. -/
def valueJson (vocabulary : Vocabulary) : Option Value → Json
  | none => .null
  | some .void => .null
  | some (.integer n) => .integer n.toInt
  | some (.float x) => .number x
  | some (.word w) =>
    match vocabulary.text? w with
    | some text => .string text
    | none => .integer w.raw.toNat

/-- A token in a JSON listing, with the line that the cursor has reached. -/
def tokenJson (vocabulary : Vocabulary) (line : Nat) (token : Token) : Json :=
  .object [("line", .integer line), ("type", .string token.kind.name),
    ("value", valueJson vocabulary token.value)]

end Listing
end TokenTape
