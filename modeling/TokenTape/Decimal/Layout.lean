import TokenTape.Decimal.Shortest
/-!
Decimal text. `positional` writes every digit in its place; `scientific` writes one digit
before the point and the power of ten after a mark. Neither drops or adds a digit that
counts.
-/
namespace TokenTape.Decimal

/-- Decimal digits without zeros at the end, and the power of ten of the first of them. -/
structure Digits where
  digits : List Char
  leading : Int
  deriving DecidableEq, Repr

/-- The digits of a decimal, or the single digit zero. -/
def toDigits (x : Decimal) : Digits :=
  let written := Nat.toDigits 10 x.coefficient
  let kept := (written.reverse.dropWhile (· = '0')).reverse
  if kept.isEmpty then ⟨['0'], 0⟩ else ⟨kept, x.exponent + written.length - 1⟩

/-- Every digit in its place, with at least one digit on either side of the point. -/
def Digits.positional (x : Digits) : String :=
  if x.leading < 0 then
    "0." ++ String.ofList (List.replicate (-x.leading - 1).toNat '0' ++ x.digits)
  else
    let places := x.leading.toNat + 1
    let whole := x.digits.take places ++ List.replicate (places - x.digits.length) '0'
    let fraction := x.digits.drop places
    String.ofList (whole ++ '.' :: (if fraction.isEmpty then ['0'] else fraction))

/-- One digit, the others after a point if there are any, and the signed power of ten. -/
def Digits.scientific (x : Digits) : String :=
  let mantissa := match x.digits with
    | [] => []
    | [digit] => [digit]
    | digit :: more => digit :: '.' :: more
  let sign := if x.leading < 0 then "e-" else "e+"
  String.ofList mantissa ++ sign ++ toString x.leading.natAbs

end TokenTape.Decimal
