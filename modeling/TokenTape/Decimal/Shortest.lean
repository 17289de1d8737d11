import TokenTape.Value.Binary64
/-!
The shortest decimal that reads back as a given magnitude. The reals that round to a
binary number form an interval around it. Decimal grids are tried from the coarsest on, and
the first grid with a point in the interval gives the answer, by its point nearest to the
number. All comparisons are exact.
-/
namespace TokenTape

/-- Which way to go from a number halfway between two neighbours. -/
inductive Tie where
  | up | even
  deriving DecidableEq, Repr

/-- A decimal `coefficient * 10 ^ exponent`. -/
structure Decimal where
  coefficient : Nat
  exponent : Int
  deriving DecidableEq, Repr

namespace Decimal

/-- The interval of reals that round to a magnitude, in quarters of its last place. The
distance to the number below is halved where the exponent is about to drop. -/
structure Interval where
  low : Nat
  value : Nat
  high : Nat
  /-- Whether the two ends belong to the interval. -/
  closed : Bool
  /-- The binary exponent of the unit. -/
  exponent : Int
  deriving DecidableEq, Repr

/-- The interval of a magnitude: its ends round to it when its significand is even. -/
def Interval.around (x : Binary64.Magnitude) : Interval :=
  let narrow := x.significand = 0x10000000000000 ∧ -1074 < x.exponent
  { low := 4 * x.significand - (if narrow then 1 else 2)
    value := 4 * x.significand
    high := 4 * x.significand + 2
    closed := x.significand % 2 = 0
    exponent := x.exponent - 2 }

/-- The point of the grid of multiples of `10 ^ exponent` that lies in the interval nearest
to its value, by coefficient. Only the two neighbours of the value can be that point. -/
def Interval.nearest? (around : Interval) (tie : Tie) (exponent : Int) : Option Nat :=
  let step := Nat.pow 10 exponent.toNat * Nat.pow 2 (-around.exponent).toNat
  let unit := Nat.pow 10 (-exponent).toNat * Nat.pow 2 around.exponent.toNat
  let below := around.value * unit / step
  let above := below + 1
  let within (small large : Nat) : Bool := small < large || (around.closed && small == large)
  let lowFits := within (around.low * unit) (below * step)
  let highFits := within (above * step) (around.high * unit)
  match lowFits, highFits with
  | false, false => none
  | true, false => some below
  | false, true => some above
  | true, true =>
    match compare (2 * around.value * unit) ((below + above) * step) with
    | .lt => some below
    | .gt => some above
    | .eq =>
      match tie with
      | .up => some above
      | .even => some (if below % 2 = 0 then below else above)

/-- Tries up to `grids` finer grids after that of `10 ^ exponent` and takes the finest of
them if no coarser one has a point in the interval. -/
def Interval.coarsest (around : Interval) (tie : Tie) : (grids : Nat) → (exponent : Int) → Decimal
  | 0, exponent => ⟨(around.nearest? tie exponent).getD 0, exponent⟩
  | grids + 1, exponent =>
    match around.nearest? tie exponent with
    | some coefficient => ⟨coefficient, exponent⟩
    | none => around.coarsest tie grids (exponent - 1)

/-- The shortest decimal that reads back as a magnitude above zero. The first grid is wider
than the number, and the number itself lies on the last. -/
def shortest (tie : Tie) (x : Binary64.Magnitude) : Decimal :=
  let around := Interval.around x
  let first : Int := (x.exponent + (Nat.log2 x.significand : Int) + 1) * 30103 / 100000 + 2
  around.coarsest tie (first - min x.exponent 0).toNat first

end Decimal
end TokenTape
