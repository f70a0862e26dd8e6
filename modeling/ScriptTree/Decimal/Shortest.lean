/-!
# Shortest decimals

A positive binary fraction stands for every real number that rounds to it. This module finds, among
the decimals in that interval, the one with the fewest digits that lies nearest to the fraction
itself. All comparisons are exact: both ends of the interval and the fraction are natural numbers
counted in one power of two.
-/

namespace ScriptTree

/-- The decimal `digits · 10 ^ exponent`. -/
structure Decimal where
  digits : Nat
  exponent : Int
deriving DecidableEq, Repr

def digitCount (n : Nat) : Nat :=
  (Nat.toDigits 10 n).length

/-- The reals that round to one binary fraction, in units of `2 ^ unit`. The two ends belong to the
interval exactly when it is `closed`. -/
structure RoundingInterval where
  low : Nat
  middle : Nat
  high : Nat
  unit : Int
  closed : Bool
deriving DecidableEq, Repr

namespace RoundingInterval

/-- The interval of the double `mantissa · 2 ^ exponent`. It is half a step wide on either side, but
only a quarter below a power of two, where the steps become finer; the least exponent has no finer
steps below it. -/
def ofBinary (mantissa : Nat) (exponent : Int) : RoundingInterval where
  low := if mantissa = Nat.pow 2 52 ∧ exponent ≠ -1074 then 4 * mantissa - 1 else 4 * mantissa - 2
  middle := 4 * mantissa
  high := 4 * mantissa + 2
  unit := exponent - 2
  closed := mantissa % 2 == 0

/-- One unit is `scale.1 / scale.2` steps of the grid `10 ^ grid`. -/
def scale (r : RoundingInterval) (grid : Int) : Nat × Nat :=
  (Nat.pow 2 r.unit.toNat * Nat.pow 10 (-grid).toNat,
    Nat.pow 2 (-r.unit).toNat * Nat.pow 10 grid.toNat)

/-- Whether the grid point `c · 10 ^ grid` lies in the interval. -/
def contains (r : RoundingInterval) (grid : Int) (c : Nat) : Bool :=
  let (num, den) := r.scale grid
  if r.closed then
    r.low * num ≤ c * den && c * den ≤ r.high * num
  else
    r.low * num < c * den && c * den < r.high * num

/-- The grid point at or just below the middle. -/
def below (r : RoundingInterval) (grid : Int) : Nat :=
  let (num, den) := r.scale grid
  r.middle * num / den

/-- The grid point of the interval that is nearest to the middle; of two equally near ones the
greater. -/
def nearest? (r : RoundingInterval) (grid : Int) : Option Nat :=
  let c := r.below grid
  let (num, den) := r.scale grid
  match r.contains grid c, r.contains grid (c + 1) with
  | false, false => none
  | true, false => some c
  | false, true => some (c + 1)
  | true, true => if 2 * (r.middle * num) < (2 * c + 1) * den then some c else some (c + 1)

/-- The power of ten at the leading digit of the middle. Scaling by `10 ^ 400` turns every positive
double into a number with a whole part. -/
def leadingExponent (r : RoundingInterval) : Int :=
  let (num, den) := r.scale (-400)
  (digitCount (r.middle * num / den) : Int) - 401

/-- The decimal with the fewest digits in the interval, nearest to its middle. Seventeen digits
always suffice for a double, so no finer grid is tried. -/
def shortest (r : RoundingInterval) : Decimal :=
  let lead := r.leadingExponent
  let onGrid (n : Nat) : Option Decimal :=
    (r.nearest? (lead - n)).map fun c => ⟨c, lead - n⟩
  ((List.range 17).findSome? onGrid).getD ⟨r.below (lead - 16), lead - 16⟩

end RoundingInterval

end ScriptTree
