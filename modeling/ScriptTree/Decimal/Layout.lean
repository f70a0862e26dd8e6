import ScriptTree.Decimal.Shortest

/-!
# Layout of decimals

The text of a decimal is its digits with a point, and beyond stated sizes a power of ten. Where
those sizes lie is the choice of whoever prints, so it is a value of its own.
-/

namespace ScriptTree

namespace Decimal

/-- Which decimals are written with a power of ten, told by the power of the leading digit: those
below `positionalFrom` and those at or above `scientificFrom`. An absent bound is never passed. -/
structure Layout where
  positionalFrom : Option Int
  scientificFrom : Option Int

/-- Every decimal is written out in full. -/
def Layout.positional : Layout := ⟨none, none⟩

/-- Whether a decimal whose leading digit stands at `10 ^ lead` is written with a power of ten. -/
def Layout.isScientific (layout : Layout) (lead : Int) : Bool :=
  layout.positionalFrom.any (lead < ·) || layout.scientificFrom.any (· ≤ lead)

/-- The same number without zeros at the end of its digits. -/
def reduce (d : Decimal) : Decimal :=
  let zeros := ((Nat.toDigits 10 d.digits).reverse.takeWhile (· == '0')).length
  ⟨d.digits / Nat.pow 10 zeros, d.exponent + zeros⟩

def zeros (n : Nat) : List Char :=
  List.replicate n '0'

/-- One digit before the point, the others after it, then the power of ten. The point is dropped
when nothing follows it. -/
def scientific (digits : List Char) (lead : Int) : List Char :=
  let fraction := digits.drop 1
  digits.take 1 ++ (if fraction.isEmpty then [] else '.' :: fraction) ++
    'e' :: (toString lead).toList

/-- The digits at their places, with at least one on either side of the point. -/
def positional (digits : List Char) (lead : Int) : List Char :=
  if lead < 0 then
    '0' :: '.' :: zeros (-lead - 1).toNat ++ digits
  else
    let whole := lead.toNat + 1
    let fraction := digits.drop whole
    digits.take whole ++ zeros (whole - digits.length) ++ '.' ::
      (if fraction.isEmpty then ['0'] else fraction)

/-- The text of a positive decimal. -/
def text (layout : Layout) (d : Decimal) : String :=
  let d := d.reduce
  let digits := Nat.toDigits 10 d.digits
  let lead := d.exponent + digits.length - 1
  String.ofList
    (if layout.isScientific lead then scientific digits lead else positional digits lead)

end Decimal

end ScriptTree
