import ScriptTree.Expression

/-!
# Statements and blocks

Statements carry their own line, like expressions. Blocks and clauses have none: they are the bare
content between braces, and a condition with such a content.
-/

namespace ScriptTree

mutual

/-- A statement of the language. An absent `else` is not an empty one. -/
inductive Statement where
  | expression (line : Line) (expression : Expression)
  | global (line : Line) (names : Chain String)
  | ifElse (line : Line) (condition : Expression) (thenBlock : Block)
      (elsifs : Option (Chain Elsif)) (elseBlock : Option Block)
  | whileLoop (line : Line) (condition : Expression) (block : Block)
  | forLoop (line : Line) (init condition post : Option Expression) (block : Block)
  | returnWith (line : Line) (value : Option Expression)
  | breakLoop (line : Line)
  | continueLoop (line : Line)

/-- One further condition of an `if`, with its body. -/
structure Elsif where
  condition : Expression
  block : Block

/-- The body of a function, a loop or a branch. -/
structure Block where
  statements : List Statement

end

/-- The statements of a list, or no statement where there is no list. -/
def Block.ofChain (statements : Option (Chain Statement)) : Block :=
  ⟨(statements.map Chain.toList).getD []⟩

def Statement.line : Statement → Line
  | .expression line _ | .global line _ | .ifElse line _ _ _ _ | .whileLoop line _ _
  | .forLoop line _ _ _ _ | .returnWith line _ | .breakLoop line | .continueLoop line => line

mutual

/-- Equality of statements, with lines, and with literals compared as numbers. -/
def Statement.beq : Statement → Statement → Bool
  | .expression l e, .expression l' e' => l == l' && e == e'
  | .global l c, .global l' c' => l == l' && c == c'
  | .ifElse l c t es b, .ifElse l' c' t' es' b' =>
    l == l' && c == c' && Block.beq t t' && Elsif.beqChain? es es' && Block.beq? b b'
  | .whileLoop l c b, .whileLoop l' c' b' => l == l' && c == c' && Block.beq b b'
  | .forLoop l i c p b, .forLoop l' i' c' p' b' =>
    l == l' && i == i' && c == c' && p == p' && Block.beq b b'
  | .returnWith l e, .returnWith l' e' => l == l' && e == e'
  | .breakLoop l, .breakLoop l' => l == l'
  | .continueLoop l, .continueLoop l' => l == l'
  | _, _ => false

def Elsif.beq : Elsif → Elsif → Bool
  | ⟨c, b⟩, ⟨c', b'⟩ => c == c' && Block.beq b b'

def Elsif.beqList : List Elsif → List Elsif → Bool
  | [], [] => true
  | a :: as, b :: bs => Elsif.beq a b && Elsif.beqList as bs
  | _, _ => false

/-- Equality of chains of clauses, where either may be absent. -/
def Elsif.beqChain? : Option (Chain Elsif) → Option (Chain Elsif) → Bool
  | none, none => true
  | some ⟨a, as⟩, some ⟨b, bs⟩ => Elsif.beq a b && Elsif.beqList as bs
  | _, _ => false

def Block.beq : Block → Block → Bool
  | ⟨as⟩, ⟨bs⟩ => Statement.beqList as bs

/-- Equality of blocks, where either may be absent. -/
def Block.beq? : Option Block → Option Block → Bool
  | none, none => true
  | some a, some b => Block.beq a b
  | _, _ => false

def Statement.beqList : List Statement → List Statement → Bool
  | [], [] => true
  | a :: as, b :: bs => Statement.beq a b && Statement.beqList as bs
  | _, _ => false

end

instance : BEq Statement := ⟨Statement.beq⟩

instance : BEq Elsif := ⟨Elsif.beq⟩

instance : BEq Block := ⟨Block.beq⟩

end ScriptTree
