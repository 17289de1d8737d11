import TokenTape.Bytes.Text
/-!
What can go wrong, and what is told about it. A fault is found in source text and is told
with file and line; damage is found on a tape and is told with a byte offset. Each cause has
its own constructor, and its wording stands in `message` alone.
-/
namespace TokenTape

/-- What is wrong with source text at one place. -/
inductive Fault where
  /-- No token starts with this character. -/
  | illegal (character : Char)
  /-- A character literal that should close at this byte does not. -/
  | unclosed (found : UInt8)
  /-- A fault told by someone else. -/
  | reported (text : String)
  deriving DecidableEq, Repr

/-- What is wrong with a tape at one place. -/
inductive Damage where
  | ended
  | unknownTag (tag : UInt8)
  | missingValue
  | unknownValue (discriminator : UInt8)
  | shortValue (needed left : Nat)
  /-- Damage told by someone else. -/
  | reported (text : String)
  deriving DecidableEq, Repr

/-- Why lexing or replaying stopped. -/
inductive Diagnosis where
  | fault (file : String) (line : Nat) (fault : Fault)
  | outOfMemory (file : String) (line : Nat)
  | corrupt (offset : Nat) (damage : Damage)
  /-- The input could not be read; the reason is told as it was given. -/
  | unreadable (reason : String)
  deriving DecidableEq, Repr

/-- A byte made visible: quotes, backslash and the common controls with a backslash, other
printable ASCII as it is, and the rest by two hexadecimal digits. -/
def visibleByte (byte : UInt8) : String :=
  if byte = 9 then "\\t"
  else if byte = 10 then "\\n"
  else if byte = 13 then "\\r"
  else if byte = 34 then "\\\""
  else if byte = 39 then "\\'"
  else if byte = 92 then "\\\\"
  else if 32 ≤ byte ∧ byte ≤ 126 then String.singleton (Char.ofNat byte.toNat)
  else "\\x" ++ Hex.ofByte byte

/-- What is told about a fault. -/
def Fault.message : Fault → String
  | illegal character => s!"illegal character '{character}'"
  | unclosed found => s!"illegal character '{visibleByte found}'"
  | reported text => text

/-- What is told about damage. -/
def Damage.message : Damage → String
  | ended => "read past end of token stream"
  | unknownTag tag => s!"unknown token tag {tag.toNat}"
  | missingValue => "missing value record"
  | unknownValue discriminator => s!"unknown value type {discriminator.toNat}"
  | shortValue needed left => s!"value needs {needed} payload bytes, {left} left"
  | reported text => text

/-- The whole line that tells why lexing or replaying stopped. -/
def Diagnosis.message : Diagnosis → String
  | fault file line cause => s!"{file}:{line}: {cause.message}"
  | outOfMemory file line => s!"{file}:{line}: out of memory while lexing"
  | corrupt offset damage => s!"corrupt token stream at offset {offset}: {damage.message}"
  | unreadable reason => reason

end TokenTape
