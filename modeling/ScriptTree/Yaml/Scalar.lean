import ScriptTree.Double
import ScriptTree.Yaml.Token

/-!
# The meaning of scalars

A plain scalar may be a null, a boolean or a number; what is none of these is text. Numbers have one
spelling for each base, without needless zeros in front, so that codes such as `007` stay text.
Integers are held in 64 bits or, beyond that, in 128 bits; what is larger still is read as a
floating point number.
-/

namespace ScriptTree.Yaml

/-- What a scalar stands for. -/
inductive Scalar where
  | null
  | boolean (b : Bool)
  /-- An integer of 64 bits, with or without a sign. -/
  | integer (n : Int)
  /-- An integer that needs up to 128 bits. -/
  | wide (n : Int)
  | floating (x : Float)
  | text (s : String)
deriving DecidableEq

namespace Scalar

/-! ## Nulls and booleans -/

def isNull (text : String) : Bool :=
  ["null", "Null", "NULL", "~"].contains text

def boolean? (text : String) : Option Bool :=
  if ["true", "True", "TRUE"].contains text then some true
  else if ["false", "False", "FALSE"].contains text then some false
  else none

/-! ## Integers -/

def digit? (base : Nat) (c : Char) : Option Nat :=
  (hexValue? c).filter (· < base)

/-- The number that a run of digits stands for. -/
def natural? (base : Nat) (digits : List Char) : Option Nat :=
  if digits.isEmpty then none
  else digits.foldlM (fun n c => (digit? base c).map (base * n + ·)) 0

/-- Decimal digits with a needless zero in front. -/
def hasLeadingZero : List Char → Bool
  | '0' :: c :: rest => (c :: rest).all Char.isDigit
  | _ => false

/-- A number without a sign, in the base that its first characters tell. -/
def magnitude? : List Char → Option Nat
  | '0' :: 'x' :: digits => natural? 16 digits
  | '0' :: 'o' :: digits => natural? 8 digits
  | '0' :: 'b' :: digits => natural? 2 digits
  | digits => if hasLeadingZero digits then none else natural? 10 digits

/-- A number with or without a sign. -/
def integer? : List Char → Option Int
  | '-' :: rest => (magnitude? rest).map fun n => -(n : Int)
  | '+' :: rest => (magnitude? rest).map Int.ofNat
  | rest => (magnitude? rest).map Int.ofNat

/-- A number without a minus that fits into 64 bits. -/
def unsigned? (text : List Char) : Option UInt64 :=
  if text.head? == some '-' then none
  else (integer? text).bind fun n =>
    if n < Int.pow 2 64 then some (UInt64.ofNat n.toNat) else none

/-- The scalar for an integer, if it is not too large. -/
def ofInteger? (n : Int) : Option Scalar :=
  if -Int.pow 2 63 ≤ n ∧ n < Int.pow 2 64 then some (.integer n)
  else if -Int.pow 2 127 ≤ n ∧ n < Int.pow 2 128 then some (.wide n)
  else none

/-! ## Floating point numbers -/

/-- A power of ten behind the letter `e`, or zero where there is none. -/
def exponent? : List Char → Option Int
  | [] => some 0
  | e :: rest =>
    if e == 'e' || e == 'E' then
      match rest with
      | '-' :: digits => (natural? 10 digits).map fun n => -(n : Int)
      | '+' :: digits => (natural? 10 digits).map Int.ofNat
      | digits => (natural? 10 digits).map Int.ofNat
    else
      none

/-- A decimal without a sign: digits, at least one of them, with or without a point, and perhaps a
power of ten. -/
def decimal? (text : List Char) : Option Decimal := do
  let whole := text.takeWhile Char.isDigit
  let rest := text.drop whole.length
  let (fraction, rest) :=
    match rest with
    | '.' :: rest =>
      let fraction := rest.takeWhile Char.isDigit
      (fraction, rest.drop fraction.length)
    | _ => ([], rest)
  let digits ← natural? 10 (whole ++ fraction)
  return ⟨digits, (← exponent? rest) - fraction.length⟩

/-- The decimals from here on are nearer to the next power of two than to any double. -/
def doubleBound : Nat :=
  Nat.pow 2 1024 - Nat.pow 2 970

/-- Whether the double nearest to a decimal is finite. Only where the bound has as many digits as
the decimal have the two to be compared. -/
def isBounded (d : Decimal) : Bool :=
  let lead := d.exponent + digitCount d.digits
  d.digits == 0 || lead < 309 ||
    (lead == 309 &&
      d.digits * Nat.pow 10 d.exponent.toNat < doubleBound * Nat.pow 10 (-d.exponent).toNat)

/-- The double nearest to a decimal, unless the decimal is too large for any. -/
def nearest? (d : Decimal) : Option Float :=
  if isBounded d then some (.ofScientific d.digits (d.exponent < 0) d.exponent.natAbs) else none

def infinity : Float :=
  .ofModel (.pack (.infinity .positive))

/-- Whether a text is a point with one of some words behind it. -/
def isPointed (words : List String) (text : List Char) : Bool :=
  words.any fun word => text == '.' :: word.toList

def unsignedFloating? (text : List Char) : Option Float :=
  if isPointed ["inf", "Inf", "INF"] text then some infinity else (decimal? text).bind nearest?

/-- A floating point number: one of the words for the infinities and for a NaN, or a decimal. -/
def floating? : List Char → Option Float
  | '+' :: rest => unsignedFloating? rest
  | '-' :: rest => (unsignedFloating? rest).map (- ·)
  | rest =>
    if isPointed ["nan", "NaN", "NAN"] rest then some Double.notANumber
    else unsignedFloating? rest

/-! ## Scalars -/

/-- Digits with a needless zero in front, behind a sign or not. -/
def isCode : List Char → Bool
  | '-' :: rest | '+' :: rest => hasLeadingZero rest
  | rest => hasLeadingZero rest

/-- What a plain scalar stands for. -/
def ofPlain (text : String) : Scalar :=
  let characters := text.toList
  let number :=
    ((integer? characters).bind ofInteger?).orElse fun _ =>
      if isCode characters then none else (floating? characters).map .floating
  if text.isEmpty || isNull text then .null
  else ((boolean? text).map .boolean).getD (number.getD (.text text))

/-! ## What a scalar is taken for -/

/-- An integer that fits into 64 bits with a sign. -/
def asInteger? : Scalar → Option Int64
  | integer n =>
    if -Int.pow 2 63 ≤ n ∧ n < Int.pow 2 63 then some (Int64.ofInt n) else none
  | _ => none

/-- A double, or the double of any integer. -/
def asDouble? : Scalar → Option Float
  | floating x => some x
  | integer n => some (Float.ofInt n)
  | _ => none

def asBoolean? : Scalar → Option Bool
  | boolean b => some b
  | _ => none

end Scalar

end ScriptTree.Yaml
