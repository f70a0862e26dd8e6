/-!
# Binary operators

The operators of the language with their symbols. The two logical ones stand apart: they evaluate
their right operand only when they must, so building a tree never evaluates them.
-/

namespace ScriptTree

/-- A binary operator. -/
inductive BinaryOperator where
  | add | sub | mul | div | mod
  | eq | ne | gt | ge | lt | le
  | and | or
deriving DecidableEq, Repr

namespace BinaryOperator

/-- All operators: arithmetic first, then comparisons, then logic. -/
def all : List BinaryOperator :=
  [.add, .sub, .mul, .div, .mod, .eq, .ne, .gt, .ge, .lt, .le, .and, .or]

/-- How the operator is written. -/
def symbol : BinaryOperator → String
  | .add => "+"
  | .sub => "-"
  | .mul => "*"
  | .div => "/"
  | .mod => "%"
  | .eq => "=="
  | .ne => "!="
  | .gt => ">"
  | .ge => ">="
  | .lt => "<"
  | .le => "<="
  | .and => "&&"
  | .or => "||"

/-- The operator with a given symbol. -/
def ofSymbol? (s : String) : Option BinaryOperator :=
  all.find? (·.symbol == s)

def isLogical : BinaryOperator → Bool
  | .and | .or => true
  | _ => false

/-- Reading a symbol back gives the operator it belongs to. -/
theorem ofSymbol?_symbol (op : BinaryOperator) : ofSymbol? op.symbol = some op := by
  cases op <;> decide

end BinaryOperator

end ScriptTree
