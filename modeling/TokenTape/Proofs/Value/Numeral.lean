import Mathlib.Data.Int.ModEq
import Mathlib.Data.List.Induction
import Mathlib.Data.Nat.Digits.Defs
import TokenTape.Value.Numeral
/-!
What digits mean, however many there are. Whole numbers are added up digit by digit modulo `2 ^ 64`, and
the digits of an exponent up to a greatest power; both come to what the digits mean all together
(`Numeral.eq_integer_iff`, `Numeral.power_eq`). The sign of an exponent counts only when its power is
known (`Numeral.scale_eq`).
-/
namespace TokenTape

/-- The number that decimal digits mean by their places. -/
def decimal (digits : List Char) : Nat := Nat.ofDigits 10 (digits.reverse.map digitValue)

theorem decimal_append_digit (digits : List Char) (digit : Char) :
    decimal (digits ++ [digit]) = decimal digits * 10 + digitValue digit := by
  simp only [decimal, List.reverse_append, List.reverse_singleton, List.singleton_append,
    List.map_cons, Nat.ofDigits_cons]
  omega

namespace Numeral

theorem integer_append_digit (digits : List Char) (digit : Char) :
    integer (digits ++ [digit]) = integer digits * 10 + Int64.ofNat (digitValue digit) :=
  List.foldl_append

theorem power_append_digit (digits : List Char) (digit : Char) :
    power (digits ++ [digit]) = min (power digits * 10 + digitValue digit) greatestPower :=
  List.foldl_append

/-- Wrapping around at each digit is wrapping around once. -/
theorem integer_eq (digits : List Char) : integer digits = Int64.ofNat (decimal digits) := by
  induction digits using List.reverseRecOn with
  | nil => rfl
  | append_singleton digits digit ih =>
    rw [integer_append_digit, decimal_append_digit, ih, Int64.ofNat_add, Int64.ofNat_mul]
    rfl

/-- The integer that digits mean is the only one that is congruent to their number. -/
theorem eq_integer_iff {digits : List Char} {n : Int64} :
    n.toInt ≡ decimal digits [ZMOD 2 ^ 64] ↔ n = integer digits := by
  have wrapped : (integer digits).toInt = (decimal digits : Int).bmod (2 ^ 64) := by
    rw [integer_eq, ← Int64.ofInt_eq_ofNat, Int64.toInt_ofInt]
    rfl
  constructor
  · intro congruent
    have remainder : n.toInt % (2 ^ 64 : Nat) = (decimal digits : Int) % (2 ^ 64 : Nat) := congruent
    apply Int64.toInt_inj.mp
    calc n.toInt = n.toInt.bmod (2 ^ 64) := n.toInt_bmod.symm
      _ = (n.toInt % (2 ^ 64 : Nat)).bmod (2 ^ 64) := (Int.emod_bmod _ _).symm
      _ = ((decimal digits : Int) % (2 ^ 64 : Nat)).bmod (2 ^ 64) := by rw [remainder]
      _ = (integer digits).toInt := by rw [Int.emod_bmod, wrapped]
  · rintro rfl
    rw [wrapped]
    exact Int.bmod_emod

/-- Stopping at the greatest power at each digit is stopping there once. -/
theorem power_eq (digits : List Char) : power digits = min (decimal digits) (2 ^ 31 - 1) := by
  induction digits using List.reverseRecOn with
  | nil => rfl
  | append_singleton digits digit ih =>
    rw [power_append_digit, decimal_append_digit, ih, greatestPower]
    omega

/-- A mantissa scaled up or down by a power of ten. A zero stays as it is. -/
def scaled (mantissa : Float) (down : Bool) (power : Nat) : Float :=
  if mantissa == 0.0 then mantissa
  else if down then mantissa / scaleBySquares 1.0 10.0 power
  else mantissa * scaleBySquares 1.0 10.0 power

/-- The power of an exponent is that of its digits, up to the greatest; its sign says the direction. -/
theorem scale_eq (mantissa : Float) (exponent : Exponent) :
    scale mantissa exponent =
      scaled mantissa exponent.negative (min (decimal exponent.digits) (2 ^ 31 - 1)) := by
  simp only [scale, scaled, power_eq]

/-- What stands before the exponent, as a floating-point number. -/
def mantissa (whole : List Char) (fraction : Option (List Char)) : Float :=
  match fraction with
  | none => nearest (integer whole)
  | some digits => addFraction (nearest (integer whole)) digits

/-- A numeral means a float if it has a fraction or an exponent, and an integer otherwise. -/
theorem value_cases (parts : Numeral) :
    (parts.isFloat = false ∧ ∃ n, parts.value = .integer n) ∨
      (parts.isFloat = true ∧ ∃ x, parts.value = .float x) := by
  obtain ⟨whole, fraction | digits, exponent | exponent⟩ := parts
  · exact Or.inl ⟨rfl, _, rfl⟩
  · exact Or.inr ⟨rfl, _, rfl⟩
  · exact Or.inr ⟨rfl, _, rfl⟩
  · exact Or.inr ⟨rfl, _, rfl⟩

theorem value_of_fraction (whole digits : List Char) :
    value ⟨whole, some digits, none⟩ = .float (.ofFloat (mantissa whole (some digits))) := rfl

theorem value_of_exponent (whole : List Char) (fraction : Option (List Char)) (exponent : Exponent) :
    value ⟨whole, fraction, some exponent⟩ =
      .float (.ofFloat (scaled (mantissa whole fraction) exponent.negative
        (min (decimal exponent.digits) (2 ^ 31 - 1)))) := by
  rw [← scale_eq]
  cases fraction <;> rfl

end Numeral
end TokenTape
