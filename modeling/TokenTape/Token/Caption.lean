import TokenTape.Decimal.Layout
import TokenTape.Token
/-!
The caption of a token is the one-line text under which a listing shows it: the name of its
kind and, after a space, its value with words spelled out.
-/
namespace TokenTape

/-- A number in a caption. An integral number shows every digit of its exact value; any
other shows the shortest digits that read back, each in its place, where a digit halfway
goes up. -/
def Binary64.caption (x : Binary64) : String :=
  let sign := if x.negative then "-" else ""
  match x.reading with
  | .notANumber => "NaN"
  | .infinite => sign ++ "inf"
  | .finite magnitude =>
    match magnitude.integer? with
    | some n => sign ++ toString n ++ ".0"
    | none => sign ++ (Decimal.shortest .up magnitude).toDigits.positional

/-- The character with a given code, if it is printable ASCII other than the space. -/
def graphicCharacter? (code : Int64) : Option Char :=
  let n := code.toInt
  if 33 ≤ n ∧ n ≤ 126 then some (Char.ofNat n.toNat) else none

/-- What a caption shows of a value; nothing for the void value. -/
def Value.caption? (vocabulary : Vocabulary) (kind : Kind) : Value → Option String
  | .void => none
  | .integer n =>
    match kind, graphicCharacter? n with
    | .atom .character, some c => some s!"'{c}'"
    | _, _ => some (toString n.toInt)
  | .float x => some x.caption
  | .word w =>
    match vocabulary.text? w, kind with
    | some text, .atom .string => some s!"\"{text}\""
    | some text, _ => some text
    | none, _ => some s!"#{w.raw.toNat}"

/-- The line under which a listing shows the token. -/
def Token.caption (vocabulary : Vocabulary) (token : Token) : String :=
  match token.value.bind (Value.caption? vocabulary token.kind) with
  | some text => s!"{token.kind.name} {text}"
  | none => token.kind.name

end TokenTape
