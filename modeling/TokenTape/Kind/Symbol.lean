/-!
Operators and punctuation. Each symbol has one spelling of one or two characters, and
`pair?` and `single?` read the two lengths back. Reading the pair first makes the longer
of two spellings win wherever both stand at the same place.
-/
namespace TokenTape

/-- An operator or a punctuation mark. -/
inductive Symbol where
  | assign | equal | notEqual | plus | increment | addAssign | minus | decrement
  | subtractAssign | arrow | asterisk | slash | modulus | less | lessEqual | greater
  | greaterEqual | ampersand | logicalAnd | bitOr | logicalOr | bitXor | logicalNot | bitNot
  | question | colon | semicolon | comma | dot | leftParen | rightParen | leftBrace
  | rightBrace | leftBracket | rightBracket
  deriving DecidableEq, Repr

namespace Symbol

/-- Every symbol, in the order of the constructors. -/
def all : List Symbol :=
  [assign, equal, notEqual, plus, increment, addAssign, minus, decrement, subtractAssign,
    arrow, asterisk, slash, modulus, less, lessEqual, greater, greaterEqual, ampersand,
    logicalAnd, bitOr, logicalOr, bitXor, logicalNot, bitNot, question, colon, semicolon,
    comma, dot, leftParen, rightParen, leftBrace, rightBrace, leftBracket, rightBracket]

/-- How the symbol is written in source text. -/
def spelling : Symbol → List Char
  | assign => ['=']
  | equal => ['=', '=']
  | notEqual => ['!', '=']
  | plus => ['+']
  | increment => ['+', '+']
  | addAssign => ['+', '=']
  | minus => ['-']
  | decrement => ['-', '-']
  | subtractAssign => ['-', '=']
  | arrow => ['-', '>']
  | asterisk => ['*']
  | slash => ['/']
  | modulus => ['%']
  | less => ['<']
  | lessEqual => ['<', '=']
  | greater => ['>']
  | greaterEqual => ['>', '=']
  | ampersand => ['&']
  | logicalAnd => ['&', '&']
  | bitOr => ['|']
  | logicalOr => ['|', '|']
  | bitXor => ['^']
  | logicalNot => ['!']
  | bitNot => ['~']
  | question => ['?']
  | colon => [':']
  | semicolon => [';']
  | comma => [',']
  | dot => ['.']
  | leftParen => ['(']
  | rightParen => [')']
  | leftBrace => ['{']
  | rightBrace => ['}']
  | leftBracket => ['[']
  | rightBracket => [']']

/-- The symbol that two characters spell together. -/
def pair? : Char → Char → Option Symbol
  | '=', '=' => some equal
  | '!', '=' => some notEqual
  | '+', '+' => some increment
  | '+', '=' => some addAssign
  | '-', '-' => some decrement
  | '-', '=' => some subtractAssign
  | '-', '>' => some arrow
  | '<', '=' => some lessEqual
  | '>', '=' => some greaterEqual
  | '&', '&' => some logicalAnd
  | '|', '|' => some logicalOr
  | _, _ => none

/-- The symbol that one character spells alone. -/
def single? : Char → Option Symbol
  | '=' => some assign
  | '+' => some plus
  | '-' => some minus
  | '*' => some asterisk
  | '/' => some slash
  | '%' => some modulus
  | '<' => some less
  | '>' => some greater
  | '&' => some ampersand
  | '|' => some bitOr
  | '^' => some bitXor
  | '!' => some logicalNot
  | '~' => some bitNot
  | '?' => some question
  | ':' => some colon
  | ';' => some semicolon
  | ',' => some comma
  | '.' => some dot
  | '(' => some leftParen
  | ')' => some rightParen
  | '{' => some leftBrace
  | '}' => some rightBrace
  | '[' => some leftBracket
  | ']' => some rightBracket
  | _ => none

/-- The symbol at the front of a text and the text after it, the longer spelling first. -/
def front? : List Char → Option (Symbol × List Char)
  | [] => none
  | [a] => (single? a).map (·, [])
  | a :: b :: rest =>
    match pair? a b with
    | some symbol => some (symbol, rest)
    | none => (single? a).map (·, b :: rest)

/-- The name under which the symbol appears in listings. -/
def name : Symbol → String
  | assign => "ASSIGN"
  | equal => "EQUALITY"
  | notEqual => "NOT_EQUAL"
  | plus => "PLUS"
  | increment => "INCREMENT"
  | addAssign => "ADD_ASSIGN"
  | minus => "MINUS"
  | decrement => "DECREMENT"
  | subtractAssign => "SUBTRACT_ASSIGN"
  | arrow => "ARROW"
  | asterisk => "ASTERISK"
  | slash => "SLASH"
  | modulus => "MODULUS"
  | less => "LESS_THAN"
  | lessEqual => "LESS_EQUAL"
  | greater => "GREATER_THAN"
  | greaterEqual => "GREATER_EQUAL"
  | ampersand => "AMPERSAND"
  | logicalAnd => "LOGICAL_AND"
  | bitOr => "ARITHMETIC_OR"
  | logicalOr => "LOGICAL_OR"
  | bitXor => "ARITHMETIC_EXOR"
  | logicalNot => "UNARY_NOT"
  | bitNot => "UNARY_EXOR"
  | question => "QUESTION_MARK"
  | colon => "COLON"
  | semicolon => "SEMICOLON"
  | comma => "COMMA"
  | dot => "DOT"
  | leftParen => "LEFT_PAREN"
  | rightParen => "RIGHT_PAREN"
  | leftBrace => "LEFT_BRACE"
  | rightBrace => "RIGHT_BRACE"
  | leftBracket => "LEFT_BRACKET"
  | rightBracket => "RIGHT_BRACKET"

/-- A text that yields a symbol starts with that symbol's spelling. -/
theorem spelling_append_of_front? {text rest : List Char} {symbol : Symbol}
    (found : front? text = some (symbol, rest)) : symbol.spelling ++ rest = text := by
  have single_spelling : ∀ {a : Char} {s : Symbol}, single? a = some s → s.spelling = [a] := by
    intro a s h
    unfold single? at h
    split at h <;> cases h <;> rfl
  have pair_spelling : ∀ {a b : Char} {s : Symbol}, pair? a b = some s → s.spelling = [a, b] := by
    intro a b s h
    unfold pair? at h
    split at h <;> cases h <;> rfl
  match text with
  | [] => simp [front?] at found
  | [a] =>
    simp only [front?, Option.map_eq_some_iff, Prod.mk.injEq] at found
    obtain ⟨s, hs, rfl, rfl⟩ := found
    simp [single_spelling hs]
  | a :: b :: more =>
    simp only [front?] at found
    split at found
    · next s hs => cases found; simp [pair_spelling hs]
    · simp only [Option.map_eq_some_iff, Prod.mk.injEq] at found
      obtain ⟨s, hs, rfl, rfl⟩ := found
      simp [single_spelling hs]

end Symbol
end TokenTape
