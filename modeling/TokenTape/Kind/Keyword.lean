/-!
The reserved words of the language. A keyword is known by its spelling; `ofSpelling?`
inverts `spelling`, so no two keywords share one.
-/
namespace TokenTape

/-- A reserved word. -/
inductive Keyword where
  | hashDefine | hashInclude | breakWord | caseWord | char | default | doWord | double
  | elseWord | enum | float | forWord | ifWord | int | long | returnWord | signed | short
  | struct | switch | typedef | union | unsigned | void | whileWord
  deriving DecidableEq, Repr

namespace Keyword

/-- Every keyword, in the order of the constructors. -/
def all : List Keyword :=
  [hashDefine, hashInclude, breakWord, caseWord, char, default, doWord, double, elseWord,
    enum, float, forWord, ifWord, int, long, returnWord, signed, short, struct, switch,
    typedef, union, unsigned, void, whileWord]

/-- Every keyword, in the order of the spellings. -/
def alphabetical : List Keyword :=
  [hashDefine, hashInclude, breakWord, caseWord, char, default, doWord, double, elseWord,
    enum, float, forWord, ifWord, int, long, returnWord, short, signed, struct, switch,
    typedef, union, unsigned, void, whileWord]

/-- How the keyword is written in source text. -/
def spelling : Keyword → String
  | hashDefine => "#define"
  | hashInclude => "#include"
  | breakWord => "break"
  | caseWord => "case"
  | char => "char"
  | default => "default"
  | doWord => "do"
  | double => "double"
  | elseWord => "else"
  | enum => "enum"
  | float => "float"
  | forWord => "for"
  | ifWord => "if"
  | int => "int"
  | long => "long"
  | returnWord => "return"
  | signed => "signed"
  | short => "short"
  | struct => "struct"
  | switch => "switch"
  | typedef => "typedef"
  | union => "union"
  | unsigned => "unsigned"
  | void => "void"
  | whileWord => "while"

/-- The keyword that a text spells, if it is one. -/
def ofSpelling? (text : String) : Option Keyword :=
  all.find? (·.spelling == text)

/-- The name under which the keyword appears in listings. -/
def name : Keyword → String
  | hashDefine => "HASH_DEFINE"
  | hashInclude => "HASH_INCLUDE"
  | breakWord => "BREAK"
  | caseWord => "CASE"
  | char => "CHAR"
  | default => "DEFAULT"
  | doWord => "DO"
  | double => "DOUBLE"
  | elseWord => "ELSE"
  | enum => "ENUM"
  | float => "FLOAT"
  | forWord => "FOR"
  | ifWord => "IF"
  | int => "INT"
  | long => "LONG"
  | returnWord => "RETURN"
  | signed => "SIGNED"
  | short => "SHORT"
  | struct => "STRUCT"
  | switch => "SWITCH"
  | typedef => "TYPEDEF"
  | union => "UNION"
  | unsigned => "UNSIGNED"
  | void => "VOID"
  | whileWord => "WHILE"

theorem ofSpelling?_spelling (keyword : Keyword) : ofSpelling? keyword.spelling = some keyword := by
  cases keyword <;> decide

end Keyword
end TokenTape
