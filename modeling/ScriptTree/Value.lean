import ScriptTree.Double

/-!
# Values

The results of evaluation, and the payloads of literals. Two notions of sameness live here: `=`
tells doubles apart bit by bit, while `==` compares them as numbers, so a NaN differs from itself
and the two zeros agree.
-/

namespace ScriptTree

/-- What an expression evaluates to. -/
inductive Value where
  | integer (n : Int64)
  | double (x : Float)
  | boolean (b : Bool)
  | null
deriving DecidableEq

namespace Value

inductive Kind where
  | integer | double | boolean | null
deriving DecidableEq, Repr

/-- How error messages call a kind. -/
def Kind.name : Kind → String
  | .integer => "int"
  | .double => "double"
  | .boolean => "boolean"
  | .null => "null"

/-- The kind of a value. -/
def kind : Value → Kind
  | .integer _ => .integer
  | .double _ => .double
  | .boolean _ => .boolean
  | .null => .null

/-- Values of one kind compare by payload, doubles as numbers; values of two kinds differ. -/
def beq : Value → Value → Bool
  | .integer m, .integer n => m == n
  | .double x, .double y => x == y
  | .boolean a, .boolean b => a == b
  | .null, .null => true
  | _, _ => false

instance : BEq Value := ⟨beq⟩

/-- Doubles are written with a power of ten below `10 ^ -4` and from `10 ^ 16` on. -/
def layout : Decimal.Layout := ⟨some (-4), some 16⟩

/-- The text of a value. -/
def text : Value → String
  | .integer n => toString n.toInt
  | .double x => Double.text layout x
  | .boolean b => if b then "true" else "false"
  | .null => "null"

instance : ToString Value := ⟨text⟩

end Value

end ScriptTree
