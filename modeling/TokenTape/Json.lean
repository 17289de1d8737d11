import TokenTape.Bytes.Text
import TokenTape.Decimal.Layout
/-!
JSON text in its compact form: no blanks, the members of an object in the order given.
Every text is written on one line, because control characters are escaped in strings.
-/
namespace TokenTape

/-- A JSON value, as far as tokens need one. -/
inductive Json where
  | null
  | integer (n : Int)
  | number (x : Binary64)
  | string (text : String)
  | object (members : List (String × Json))

namespace Json

/-- A character inside a string. Quote, backslash and controls are escaped, all others are
written as they are. -/
def escaped (c : Char) : String :=
  if c = '"' then "\\\""
  else if c = '\\' then "\\\\"
  else if c = '\x08' then "\\b"
  else if c = '\x0c' then "\\f"
  else if c = '\n' then "\\n"
  else if c = '\r' then "\\r"
  else if c = '\t' then "\\t"
  else if c.toNat < 32 then "\\u" ++ Hex.padded 4 c.toNat
  else String.singleton c

/-- A string between quotes. -/
def quoted (text : String) : String :=
  text.foldl (fun written c => written ++ escaped c) "\"" ++ "\""

/-- A number by its shortest digits that read back, where a digit halfway goes to the even
neighbour. Digits stand in their places from the fifth decimal to the sixteenth place before
the point, and a power of ten is written beyond. What is not finite is null. -/
def ofBinary64 (x : Binary64) : String :=
  let sign := if x.negative then "-" else ""
  match x.reading with
  | .finite magnitude =>
    if magnitude.significand = 0 then sign ++ "0.0"
    else
      let digits := (Decimal.shortest .even magnitude).toDigits
      sign ++ if -5 ≤ digits.leading ∧ digits.leading ≤ 15 then digits.positional
        else digits.scientific
  | _ => "null"

mutual

/-- The text of a value. -/
def render : Json → String
  | null => "null"
  | integer n => toString n
  | number x => ofBinary64 x
  | string text => quoted text
  | object members => "\x7b" ++ renderMembers members ++ "\x7d"

/-- The text of the members of an object, with commas between them. -/
def renderMembers : List (String × Json) → String
  | [] => ""
  | [(name, value)] => quoted name ++ ":" ++ render value
  | (name, value) :: more => quoted name ++ ":" ++ render value ++ "," ++ renderMembers more

end

end Json
end TokenTape
