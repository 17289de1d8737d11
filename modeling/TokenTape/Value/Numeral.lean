import TokenTape.Token
/-!
Numerals. `read` takes the longest numeral from the front of a text and keeps its parts as
they are written; `value` is the number that the parts mean. A numeral with a point or an
exponent means a floating-point number, any other an integer modulo `2 ^ 64`.
-/
namespace TokenTape

/-- The power of ten written after the mark of an exponent. -/
structure Exponent where
  negative : Bool
  digits : List Char
  deriving DecidableEq, Repr

/-- The parts of a numeral. The fraction is present as soon as a point is. -/
structure Numeral where
  whole : List Char
  fraction : Option (List Char)
  exponent : Option Exponent
  deriving DecidableEq, Repr

namespace Exponent

/-- An optional sign at the front of a text, and the text after it. -/
def readSign : List Char → Bool × List Char
  | '-' :: rest => (true, rest)
  | '+' :: rest => (false, rest)
  | rest => (false, rest)

/-- An exponent at the front of a text, and the text after it. Without a digit after the
mark and the optional sign there is no exponent, and nothing is taken. -/
def read (text : List Char) : Option Exponent × List Char :=
  match text with
  | [] => (none, [])
  | mark :: rest =>
    if mark = 'e' ∨ mark = 'E' then
      let (negative, rest) := readSign rest
      let digits := rest.takeWhile Char.isDigit
      if digits.isEmpty then (none, text)
      else (some ⟨negative, digits⟩, rest.dropWhile Char.isDigit)
    else (none, text)

end Exponent

/-- The number that a decimal digit stands for. -/
def digitValue (digit : Char) : Nat := digit.toNat - '0'.toNat

namespace Numeral

/-- A point and the digits after it at the front of a text, and the text after them. -/
def readFraction : List Char → Option (List Char) × List Char
  | '.' :: rest => (some (rest.takeWhile Char.isDigit), rest.dropWhile Char.isDigit)
  | rest => (none, rest)

/-- The longest numeral at the front of a text, and the text after it. -/
def read (text : List Char) : Numeral × List Char :=
  let (fraction, afterFraction) := readFraction (text.dropWhile Char.isDigit)
  let (exponent, rest) := Exponent.read afterFraction
  (⟨text.takeWhile Char.isDigit, fraction, exponent⟩, rest)

private theorem readSign_suffix (text : List Char) : (Exponent.readSign text).2 <:+ text := by
  unfold Exponent.readSign
  split
  · exact List.suffix_cons _ _
  · exact List.suffix_cons _ _
  · exact List.suffix_refl _

private theorem readExponent_suffix (text : List Char) : (Exponent.read text).2 <:+ text := by
  unfold Exponent.read
  split
  · exact List.suffix_refl _
  · next mark rest =>
    split
    · dsimp only
      split
      · exact List.suffix_refl _
      · exact ((List.dropWhile_suffix _).trans (readSign_suffix rest)).trans
          (List.suffix_cons mark rest)
    · exact List.suffix_refl _

private theorem readFraction_suffix (text : List Char) : (readFraction text).2 <:+ text := by
  unfold readFraction
  split
  · exact (List.dropWhile_suffix _).trans (List.suffix_cons _ _)
  · exact List.suffix_refl _

/-- Behind a numeral stands the end of the text that it was read from. -/
theorem read_suffix (text : List Char) :
    (read text).2 <:+ text.dropWhile Char.isDigit :=
  (readExponent_suffix _).trans (readFraction_suffix _)

/-- The integer that digits mean, modulo `2 ^ 64`. -/
def integer (digits : List Char) : Int64 :=
  digits.foldl (fun n digit => n * 10 + Int64.ofNat (digitValue digit)) 0

/-- The floating-point number nearest to an integer, by its magnitude and its sign. -/
def nearest (n : Int64) : Float :=
  if n < 0 then -(-n).toUInt64.toFloat else n.toUInt64.toFloat

/-- Adds digits after the point one by one, each with a tenth of the weight of the one
before. -/
def addFraction (whole : Float) (digits : List Char) : Float :=
  (digits.foldl
    (fun (sum, weight) digit => (sum + (digitValue digit).toFloat * weight, weight / 10.0))
    (whole, 0.1)).1

/-- `base ^ power` times a factor, by squaring. -/
def scaleBySquares (factor base : Float) (power : Nat) : Float :=
  let factor := if power % 2 = 1 then factor * base else factor
  if power / 2 = 0 then factor else scaleBySquares factor (base * base) (power / 2)
termination_by power
decreasing_by omega

/-- The greatest power of ten that is told apart from the greater ones. -/
def greatestPower : Nat := 0x7fffffff

/-- The power of ten that an exponent means, apart from its sign. -/
def power (digits : List Char) : Nat :=
  digits.foldl (fun n digit => min (n * 10 + digitValue digit) greatestPower) 0

/-- A mantissa scaled by a power of ten. A zero stays as it is, however great the power. -/
def scale (mantissa : Float) (exponent : Exponent) : Float :=
  if mantissa == 0.0 then mantissa
  else
    let factor := scaleBySquares 1.0 10.0 (power exponent.digits)
    if exponent.negative then mantissa / factor else mantissa * factor

/-- The number that a numeral means. -/
def value (numeral : Numeral) : Value :=
  let whole := integer numeral.whole
  match numeral.fraction, numeral.exponent with
  | none, none => .integer whole
  | fraction, exponent =>
    let mantissa := match fraction with
      | none => nearest whole
      | some digits => addFraction (nearest whole) digits
    .float (.ofFloat (match exponent with
      | none => mantissa
      | some exponent => scale mantissa exponent))

/-- Whether the numeral means a floating-point number. -/
def isFloat (numeral : Numeral) : Bool :=
  numeral.fraction.isSome || numeral.exponent.isSome

end Numeral
end TokenTape
