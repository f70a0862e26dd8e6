import ScriptTree.Operator
import ScriptTree.Value

/-!
# Evaluation of operators

Operators applied to operands that are already values. The same functions serve the run time and
the folding of literals while a tree is built, which is why a folded program behaves as the plain
one. Integer pairs stay integers and wrap around, a double on either side makes the pair double,
and every comparison gives a boolean.
-/

namespace ScriptTree

/-- Why an operator has no result on its operands. -/
inductive EvalError where
  /-- An integer was divided by zero, or its remainder by zero was taken. -/
  | divisionByZero
  /-- The operation is not defined on operands of this kind. -/
  | unsupportedOperand (operation : String) (kind : Value.Kind)
  /-- The operation is not defined on this pair of kinds. -/
  | unsupportedOperands (operation : String) (left right : Value.Kind)
  /-- A logical operator was given numbers. -/
  | notBoolean (operation : String) (kind : Value.Kind)
deriving DecidableEq, Repr

/-- The wording of an evaluation error. -/
def EvalError.message : EvalError → String
  | .divisionByZero => "Integer division by zero"
  | .unsupportedOperand operation kind =>
    s!"Operation '{operation}' is not supported for type {kind.name}"
  | .unsupportedOperands operation left right =>
    s!"Operation '{operation}' is not supported between {left.name} and {right.name}"
  | .notBoolean operation kind =>
    s!"Operation '{operation}' expected boolean operands, got {kind.name}"

/-- A value, or the reason why there is none. -/
abbrev Evaluated := Except EvalError Value

namespace BinaryOperator

/-- Two integers: arithmetic modulo `2 ^ 64`, division cut towards zero. -/
def evalIntegers (op : BinaryOperator) (m n : Int64) : Evaluated :=
  match op with
  | .add => .ok (.integer (m + n))
  | .sub => .ok (.integer (m - n))
  | .mul => .ok (.integer (m * n))
  | .div => if n = 0 then .error .divisionByZero else .ok (.integer (m / n))
  | .mod => if n = 0 then .error .divisionByZero else .ok (.integer (m % n))
  | .eq => .ok (.boolean (m == n))
  | .ne => .ok (.boolean (m != n))
  | .gt => .ok (.boolean (decide (m > n)))
  | .ge => .ok (.boolean (decide (m ≥ n)))
  | .lt => .ok (.boolean (decide (m < n)))
  | .le => .ok (.boolean (decide (m ≤ n)))
  | .and | .or => .error (.notBoolean op.symbol .integer)

/-- Two doubles: a zero divisor gives an infinity or a NaN, never an error. -/
def evalDoubles (op : BinaryOperator) (x y : Float) : Evaluated :=
  match op with
  | .add => .ok (.double (x + y))
  | .sub => .ok (.double (x - y))
  | .mul => .ok (.double (x * y))
  | .div => .ok (.double (x / y))
  | .mod => .ok (.double (Double.remainder x y))
  | .eq => .ok (.boolean (x == y))
  | .ne => .ok (.boolean (x != y))
  | .gt => .ok (.boolean (decide (x > y)))
  | .ge => .ok (.boolean (decide (x ≥ y)))
  | .lt => .ok (.boolean (decide (x < y)))
  | .le => .ok (.boolean (decide (x ≤ y)))
  | .and | .or => .error (.notBoolean op.symbol .double)

/-- Two booleans: logic and equality, nothing else. -/
def evalBooleans (op : BinaryOperator) (a b : Bool) : Evaluated :=
  match op with
  | .and => .ok (.boolean (a && b))
  | .or => .ok (.boolean (a || b))
  | .eq => .ok (.boolean (a == b))
  | .ne => .ok (.boolean (a != b))
  | _ => .error (.unsupportedOperand op.symbol .boolean)

/-- At least one null: it equals another null and nothing else. -/
def evalNull (op : BinaryOperator) (left right : Value) : Evaluated :=
  let bothNull := left.kind == .null && right.kind == .null
  match op with
  | .eq => .ok (.boolean bothNull)
  | .ne => .ok (.boolean !bothNull)
  | _ => .error (.unsupportedOperands op.symbol left.kind right.kind)

/-- Applies an operator to two values. -/
def eval (op : BinaryOperator) : Value → Value → Evaluated
  | .integer m, .integer n => op.evalIntegers m n
  | .integer m, .double y => op.evalDoubles (Double.ofInteger m) y
  | .double x, .integer n => op.evalDoubles x (Double.ofInteger n)
  | .double x, .double y => op.evalDoubles x y
  | .boolean a, .boolean b => op.evalBooleans a b
  | .null, right => op.evalNull .null right
  | left, .null => op.evalNull left .null
  | left, right => .error (.unsupportedOperands op.symbol left.kind right.kind)

end BinaryOperator

/-- The arithmetic opposite of a number; the least integer is its own opposite. -/
def Value.negate : Value → Evaluated
  | .integer n => .ok (.integer (-n))
  | .double x => .ok (.double (-x))
  | operand => .error (.unsupportedOperand "-" operand.kind)

end ScriptTree
