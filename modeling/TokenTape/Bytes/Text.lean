/-!
Bytes and text. A text is kept as its UTF-8 bytes; bytes that are not valid stand for no text at
all. For a reader, bytes and numbers are written in hexadecimal: a byte with two lowercase digits,
and `Hex.decode?` reads such a text back.
-/
namespace TokenTape.Utf8

/-- The bytes of a text. -/
def encode (text : String) : List UInt8 := text.toUTF8.data.toList

/-- The text that bytes stand for, if they are valid. -/
def decode? (bytes : List UInt8) : Option String :=
  String.fromUTF8? (ByteArray.mk bytes.toArray)

/-- What is told about bytes that are not valid. -/
def complaint : String := "stream did not contain valid UTF-8"

end TokenTape.Utf8

namespace TokenTape.Hex

/-- The lowercase digit of a number below sixteen. -/
def digit (n : Nat) : Char :=
  if n < 10 then Char.ofNat ('0'.toNat + n) else Char.ofNat ('a'.toNat + (n - 10))

/-- The lowest `width` hexadecimal digits of a number, the most significant first. -/
def digits : (width : Nat) → Nat → List Char
  | 0, _ => []
  | width + 1, n => digits width (n / 16) ++ [digit (n % 16)]

/-- A number written with at least `width` hexadecimal digits. -/
def padded (width n : Nat) : String :=
  if n < Nat.pow 16 width then String.ofList (digits width n)
  else String.ofList (Nat.toDigits 16 n)

/-- One byte as two digits. -/
def ofByte (byte : UInt8) : String :=
  String.ofList [digit (byte.toNat / 16), digit (byte.toNat % 16)]

/-- A byte string as two digits per byte. -/
def encode (bytes : List UInt8) : String :=
  bytes.foldl (fun text byte => text ++ ofByte byte) ""

/-- The number below sixteen that a digit of either case stands for. -/
def digitValue? (c : Char) : Option Nat :=
  if '0' ≤ c ∧ c ≤ '9' then some (c.toNat - '0'.toNat)
  else if 'a' ≤ c ∧ c ≤ 'f' then some (c.toNat - 'a'.toNat + 10)
  else if 'A' ≤ c ∧ c ≤ 'F' then some (c.toNat - 'A'.toNat + 10)
  else none

/-- Reads pairs of digits into the bytes gathered so far, the latest of them first. -/
def decodeOnto (read : List UInt8) : List Char → Option (List UInt8)
  | [] => some read.reverse
  | [_] => none
  | high :: low :: rest =>
    match digitValue? high, digitValue? low with
    | some h, some l => decodeOnto ((16 * h + l).toUInt8 :: read) rest
    | _, _ => none

/-- The bytes that a text of digit pairs stands for. -/
def decode? (text : String) : Option (List UInt8) :=
  decodeOnto [] text.toList

end TokenTape.Hex
