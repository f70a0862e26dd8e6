import ScriptTree.Proofs.Syntax.Embedded

/-!
# Traversals of programs

A traversal visits the statements of a program from left to right, and the expressions where they
stand.  It notes something at every statement and something at every expression.  Replacing the
expressions of a program does not disturb a traversal that notes the same at the new expressions.
-/

namespace ScriptTree

/-- The kinds of statement. -/
inductive Statement.Kind where
  | expression | global | ifElse | whileLoop | forLoop | returnWith | breakLoop | continueLoop
deriving DecidableEq, Repr

section Interpretation

variable {α β γ : Type} (f : Expression → Expression)

/-- The meaning of statements with other expressions in their places. -/
def Statement.Interpretation.precompose (I : Statement.Interpretation α β γ) :
    Statement.Interpretation α β γ where
  expression line e := I.expression line (f e)
  global := I.global
  ifElse line condition := I.ifElse line (f condition)
  whileLoop line condition := I.whileLoop line (f condition)
  forLoop line init condition post :=
    I.forLoop line (init.map f) (condition.map f) (post.map f)
  returnWith line value := I.returnWith line (value.map f)
  breakLoop := I.breakLoop
  continueLoop := I.continueLoop
  elsif condition := I.elsif (f condition)
  block := I.block

/-- Expressions may be replaced before a program is interpreted, or on the way. -/
theorem Statement.interpret_mapExpressions (I : Statement.Interpretation α β γ) :
    (∀ s : Statement, (s.mapExpressions f).interpret I = s.interpret (I.precompose f)) ∧
    (∀ c : Elsif, (c.mapExpressions f).interpret I = c.interpret (I.precompose f)) ∧
    ∀ b : Block, (b.mapExpressions f).interpret I = b.interpret (I.precompose f) := by
  apply Statement.induction
  case expression => exact fun line e => rfl
  case global => exact fun line names => rfl
  case ifElse =>
    intro line condition thenBlock elsifs elseBlock hthen helsifs helse
    have hclauses : (elsifs.map (Chain.map (Elsif.mapExpressions f))).map
          (Chain.map (Elsif.interpret I)) =
        elsifs.map (Chain.map (Elsif.interpret (I.precompose f))) := by
      cases elsifs with
      | none => rfl
      | some chain =>
          rw [Option.map_some, Option.map_some, Option.map_some, Chain.map_map]
          exact congrArg some (Chain.map_congr fun c hc => helsifs chain rfl c hc)
    have hlast : (elseBlock.map (Block.mapExpressions f)).map (Block.interpret I) =
        elseBlock.map (Block.interpret (I.precompose f)) := by
      cases elseBlock with
      | none => rfl
      | some block => exact congrArg some (helse block rfl)
    rw [mapExpressions_ifElse, interpret_ifElse, interpret_ifElse, hthen, hclauses, hlast]
    rfl
  case whileLoop =>
    intro line condition block hblock
    exact congrArg (I.whileLoop line (f condition)) hblock
  case forLoop =>
    intro line init condition post block hblock
    exact congrArg (I.forLoop line (init.map f) (condition.map f) (post.map f)) hblock
  case returnWith => exact fun line value => rfl
  case breakLoop => exact fun line => rfl
  case continueLoop => exact fun line => rfl
  case elsif =>
    intro condition block hblock
    exact congrArg (I.elsif (f condition)) hblock
  case block =>
    intro statements hstatements
    rw [Block.mapExpressions_mk, Block.interpret_mk, Block.interpret_mk, List.map_map]
    exact congrArg I.block (List.map_congr_left hstatements)

end Interpretation

/-! ## Notes of a traversal -/

section Traverse

variable {α : Type} (own : Line → Statement.Kind → List α) (inner : Expression → List α)

/-- How the notes on a statement come from the notes on its parts: first the statement itself, then
what stands in it, in the order of the source. -/
def Statement.noting : Statement.Interpretation (List α) (List α) (List α) where
  expression line e := own line .expression ++ inner e
  global line _ := own line .global
  ifElse line condition thenBlock elsifs elseBlock :=
    own line .ifElse ++ inner condition ++ thenBlock ++
      (elsifs.map fun chain => chain.toList.flatten).getD [] ++ elseBlock.getD []
  whileLoop line condition block := own line .whileLoop ++ inner condition ++ block
  forLoop line init condition post block :=
    own line .forLoop ++ (init.map inner).getD [] ++ (condition.map inner).getD [] ++
      (post.map inner).getD [] ++ block
  returnWith line value := own line .returnWith ++ (value.map inner).getD []
  breakLoop line := own line .breakLoop
  continueLoop line := own line .continueLoop
  elsif condition block := inner condition ++ block
  block := List.flatten

/-- The notes on a product.  Names are not noted. -/
def Product.traverse : Product → List α
  | .expression e => inner e
  | .statement s => s.interpret (Statement.noting own inner)
  | .elsif c => c.interpret (Statement.noting own inner)
  | .block b => b.interpret (Statement.noting own inner)
  | .names _ => []
  | .arguments list => list.toList.flatMap inner
  | .statements list => list.toList.flatMap (Statement.interpret (Statement.noting own inner))
  | .elsifs list => list.toList.flatMap (Elsif.interpret (Statement.noting own inner))

variable {inner} {f : Expression → Expression} (h : ∀ e, inner (f e) = inner e)

include h

theorem Statement.precompose_noting :
    (Statement.noting own inner).precompose f = Statement.noting own inner := by
  have hinner : inner ∘ f = inner := funext h
  simp only [Interpretation.precompose, noting, h, Option.map_map, hinner]

theorem Product.traverse_ofExpressions (p : Product) :
    ((Translation.ofExpressions f).product p).traverse own inner = p.traverse own inner := by
  obtain ⟨hstatement, helsif, hblock⟩ :=
    Statement.interpret_mapExpressions f (Statement.noting own inner)
  rw [Statement.precompose_noting own h] at hstatement helsif hblock
  cases p with
  | expression e => exact h e
  | statement s => exact hstatement s
  | elsif c => exact helsif c
  | block b => exact hblock b
  | names list => rfl
  | arguments list =>
      change (list.toList.map f).flatMap inner = list.toList.flatMap inner
      rw [List.flatMap_map, funext h]
  | statements list =>
      change (list.toList.map (Statement.mapExpressions f)).flatMap _ = _
      rw [List.flatMap_map, funext hstatement]
      rfl
  | elsifs list =>
      change (list.toList.map (Elsif.mapExpressions f)).flatMap _ = _
      rw [List.flatMap_map, funext helsif]
      rfl

end Traverse

end ScriptTree
