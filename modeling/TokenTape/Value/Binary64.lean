/-!
Binary floating-point numbers of 64 bits, kept as their bits so that two of them are equal
exactly when they are stored alike: a zero differs from its negative, and every
not-a-number keeps its payload.
-/
namespace TokenTape

/-- A floating-point number by its 64 bits: sign, 11 bits of exponent, 52 of fraction. -/
structure Binary64 where
  bits : UInt64
  deriving DecidableEq, Repr

namespace Binary64

/-- The bits of a number that arithmetic has produced. -/
def ofFloat (x : Float) : Binary64 := ⟨x.toBits⟩

/-- Whether the sign bit is set. -/
def negative (x : Binary64) : Bool := x.bits >>> 63 == 1

/-- The stored exponent, from 0 to 2047. -/
def exponentField (x : Binary64) : Nat := ((x.bits >>> 52) &&& 0x7ff).toNat

/-- The stored fraction, below `2 ^ 52`. -/
def fractionField (x : Binary64) : Nat := (x.bits &&& 0xfffffffffffff).toNat

/-- A magnitude `significand * 2 ^ exponent`. -/
structure Magnitude where
  significand : Nat
  exponent : Int
  deriving DecidableEq, Repr

/-- What the bits stand for, apart from the sign. -/
inductive Reading where
  | finite (magnitude : Magnitude)
  | infinite
  | notANumber
  deriving DecidableEq, Repr

/-- What the bits stand for. The smallest exponent is shared by the numbers whose leading
bit is not implied. -/
def reading (x : Binary64) : Reading :=
  if x.exponentField = 2047 then
    if x.fractionField = 0 then .infinite else .notANumber
  else if x.exponentField = 0 then .finite ⟨x.fractionField, -1074⟩
  else .finite ⟨0x10000000000000 + x.fractionField, (x.exponentField : Int) - 1075⟩

/-- The integer that a magnitude is, if it is one. -/
def Magnitude.integer? (x : Magnitude) : Option Nat :=
  if 0 ≤ x.exponent then some (x.significand * Nat.pow 2 x.exponent.toNat)
  else if x.significand % Nat.pow 2 (-x.exponent).toNat = 0 then
    some (x.significand / Nat.pow 2 (-x.exponent).toNat)
  else none

end Binary64
end TokenTape
