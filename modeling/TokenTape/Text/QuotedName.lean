import TokenTape.Text.Visible
/-!
Names between quotes, fit to be shown on one line. Quotes and backslashes are escaped, and so
is every character that does not show itself; no two names are quoted alike.
-/
namespace TokenTape.QuotedName

/-- A character by its code point in hexadecimal, between braces. -/
def byCodePoint (c : Char) : String :=
  "\\u\x7b" ++ String.ofList (Nat.toDigits 16 c.toNat) ++ "\x7d"

/-- A character inside the quotes. -/
def escaped (c : Char) : String :=
  if c = '"' then "\\\""
  else if c = '\\' then "\\\\"
  else if c = '\t' then "\\t"
  else if c = '\n' then "\\n"
  else if c = '\r' then "\\r"
  else if c = '\x00' then "\\0"
  else if isVisible c then String.singleton c
  else byCodePoint c

/-- A name between quotes. -/
def render (name : String) : String :=
  name.foldl (fun written c => written ++ escaped c) "\"" ++ "\""

end TokenTape.QuotedName
