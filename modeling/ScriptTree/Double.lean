import ScriptTree.Decimal.Layout

/-!
# Doubles

What the language needs of doubles beyond the arithmetic that comes with the type: the double of an
integer, the exact remainder of a division, and text. All three are read off the unpacked form of a
double, a sign with a natural mantissa and a power of two.
-/

namespace ScriptTree.Double

open Float.Model (UnpackedFloat Format)

/-- The double nearest to an integer, ties to the even mantissa. -/
def ofInteger (n : Int64) : Float :=
  Float.ofInt n.toInt

/-- The result of every operation that has no numeric answer. -/
def notANumber : Float :=
  .ofModel (.pack .notANumber)

/-- The remainder of `x / y` with the quotient cut towards zero: it has the sign of `x` and is
always exact, because both operands are whole multiples of the smaller of their two powers of two.
-/
def remainder (x y : Float) : Float :=
  match x.toModel.unpack, y.toModel.unpack with
  | .notANumber, _ | _, .notANumber | .infinity _, _ | _, .zero _ => notANumber
  | .zero _, _ | _, .infinity _ => x
  | .finite sign m e _, .finite _ n f _ =>
    let unit := min e f
    let rest := (m <<< (e - unit).toNat) % (n <<< (f - unit).toNat)
    .ofModel (.pack (UnpackedFloat.round Format.binary64 sign rest unit))

/-- The minus of a negative number. -/
def signText : UnpackedFloat.Sign → String
  | .negative => "-"
  | .positive => ""

/-- A double as its shortest decimal; zeros keep their sign, a NaN shows none. -/
def text (layout : Decimal.Layout) (x : Float) : String :=
  match x.toModel.unpack with
  | .notANumber => "NaN"
  | .infinity sign => signText sign ++ "inf"
  | .zero sign => signText sign ++ "0.0"
  | .finite sign m e _ => signText sign ++ (RoundingInterval.ofBinary m e).shortest.text layout

end ScriptTree.Double
