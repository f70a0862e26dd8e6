import ScriptTree.Chain
import ScriptTree.Operator
import ScriptTree.Value

/-!
# Expressions

Expression trees. Every node carries the source line at which it was built. A number, boolean or
null in the source is a literal node with its value; only number literals ever take part in
folding.
-/

namespace ScriptTree

/-- A source line, counted in 64 bits. -/
abbrev Line := UInt64

/-- An expression of the language. -/
inductive Expression where
  | literal (line : Line) (value : Value)
  | identifier (line : Line) (name : String)
  | assign (line : Line) (target : String) (operand : Expression)
  | binary (line : Line) (op : BinaryOperator) (left right : Expression)
  | minus (line : Line) (operand : Expression)
  | call (line : Line) (name : String) (arguments : Option (Chain Expression))

namespace Expression

def line : Expression → Line
  | .literal line _ | .identifier line _ | .assign line _ _ | .binary line _ _ _ | .minus line _
  | .call line _ _ => line

/-- The value of an integer or double literal. Boolean and null literals do not fold. -/
def foldable? : Expression → Option Value
  | .literal _ (.integer n) => some (.integer n)
  | .literal _ (.double x) => some (.double x)
  | _ => none

mutual

/-- Equality of trees: lines, names and operators must agree, and literals must be equal as
numbers. A tree with a NaN in it differs even from itself. -/
def beq : Expression → Expression → Bool
  | .literal l v, .literal l' v' => l == l' && v == v'
  | .identifier l n, .identifier l' n' => l == l' && n == n'
  | .assign l n e, .assign l' n' e' => l == l' && n == n' && beq e e'
  | .binary l op a b, .binary l' op' a' b' => l == l' && op == op' && beq a a' && beq b b'
  | .minus l e, .minus l' e' => l == l' && beq e e'
  | .call l n none, .call l' n' none => l == l' && n == n'
  | .call l n (some ⟨a, as⟩), .call l' n' (some ⟨b, bs⟩) =>
    l == l' && n == n' && beq a b && beqList as bs
  | _, _ => false

def beqList : List Expression → List Expression → Bool
  | [], [] => true
  | a :: as, b :: bs => beq a b && beqList as bs
  | _, _ => false

end

instance : BEq Expression := ⟨beq⟩

end Expression

end ScriptTree
