import ScriptTree.Proofs.Construction.Translation
import ScriptTree.Proofs.Syntax.Statement

/-!
# Expressions embedded in statements

Most properties of programs are properties of the expressions in them.  This module lists the
expressions that stand in a statement, a clause, a block or any other product, in the order of the
source, and replaces each of them.  A replacement moves no line and changes no shape, so the list
after it is the list before it with every entry replaced.
-/

namespace ScriptTree

/-! ## The list of expressions -/

/-- How the expressions of a statement come from those of its parts. -/
def Statement.gathering :
    Statement.Interpretation (List Expression) (List Expression) (List Expression) where
  expression _ e := [e]
  global _ _ := []
  ifElse _ condition thenBlock elsifs elseBlock :=
    condition :: thenBlock ++ (elsifs.map fun chain => chain.toList.flatten).getD [] ++
      elseBlock.getD []
  whileLoop _ condition block := condition :: block
  forLoop _ init condition post block :=
    init.toList ++ condition.toList ++ post.toList ++ block
  returnWith _ value := value.toList
  breakLoop _ := []
  continueLoop _ := []
  elsif condition block := condition :: block
  block := List.flatten

/-- The expressions that stand in a statement, from left to right. -/
def Statement.expressions : Statement → List Expression :=
  Statement.interpret Statement.gathering

def Elsif.expressions : Elsif → List Expression :=
  Elsif.interpret Statement.gathering

def Block.expressions : Block → List Expression :=
  Block.interpret Statement.gathering

theorem Statement.expressions_ifElse (line : Line) (condition : Expression)
    (thenBlock : Block) (elsifs : Option (Chain Elsif)) (elseBlock : Option Block) :
    (Statement.ifElse line condition thenBlock elsifs elseBlock).expressions =
      condition :: thenBlock.expressions ++
        (elsifs.map fun chain => chain.toList.flatMap Elsif.expressions).getD [] ++
        (elseBlock.map Block.expressions).getD [] := by
  rw [expressions, interpret_ifElse]
  cases elsifs <;> rfl

theorem Block.expressions_mk (statements : List Statement) :
    Block.expressions ⟨statements⟩ = statements.flatMap Statement.expressions :=
  Block.interpret_mk Statement.gathering statements

/-! ## Other expressions in their places -/

/-- How a statement with other expressions comes from its parts. -/
def Statement.replacing (f : Expression → Expression) :
    Statement.Interpretation Statement Elsif Block where
  expression line e := .expression line (f e)
  global := .global
  ifElse line condition := .ifElse line (f condition)
  whileLoop line condition := .whileLoop line (f condition)
  forLoop line init condition post :=
    .forLoop line (init.map f) (condition.map f) (post.map f)
  returnWith line value := .returnWith line (value.map f)
  breakLoop := .breakLoop
  continueLoop := .continueLoop
  elsif condition := .mk (f condition)
  block := .mk

/-- The statement with every expression in it replaced. -/
def Statement.mapExpressions (f : Expression → Expression) : Statement → Statement :=
  Statement.interpret (Statement.replacing f)

def Elsif.mapExpressions (f : Expression → Expression) : Elsif → Elsif :=
  Elsif.interpret (Statement.replacing f)

def Block.mapExpressions (f : Expression → Expression) : Block → Block :=
  Block.interpret (Statement.replacing f)

section MapExpressions

variable (f : Expression → Expression)

theorem Statement.mapExpressions_ifElse (line : Line) (condition : Expression)
    (thenBlock : Block) (elsifs : Option (Chain Elsif)) (elseBlock : Option Block) :
    (Statement.ifElse line condition thenBlock elsifs elseBlock).mapExpressions f =
      .ifElse line (f condition) (thenBlock.mapExpressions f)
        (elsifs.map (Chain.map (Elsif.mapExpressions f)))
        (elseBlock.map (Block.mapExpressions f)) :=
  Statement.interpret_ifElse (Statement.replacing f) line condition thenBlock elsifs elseBlock

theorem Block.mapExpressions_mk (statements : List Statement) :
    Block.mapExpressions f ⟨statements⟩ = ⟨statements.map (Statement.mapExpressions f)⟩ :=
  Block.interpret_mk (Statement.replacing f) statements

/-- What is gathered from parts that were replaced one by one. -/
private theorem flatMap_map_eq_map_flatMap {α : Type} {replace : α → α}
    {gather : α → List Expression} {parts : List α}
    (h : ∀ a ∈ parts, gather (replace a) = (gather a).map f) :
    (parts.map replace).flatMap gather = (parts.flatMap gather).map f := by
  rw [List.flatMap_map, List.map_flatMap, List.flatMap_def, List.flatMap_def,
    List.map_congr_left h]

/-- Replacing expressions replaces the entries of the list of expressions. -/
theorem Statement.expressions_mapExpressions :
    (∀ s : Statement, (s.mapExpressions f).expressions = s.expressions.map f) ∧
    (∀ c : Elsif, (c.mapExpressions f).expressions = c.expressions.map f) ∧
    ∀ b : Block, (b.mapExpressions f).expressions = b.expressions.map f := by
  apply Statement.induction
  case expression => exact fun line e => rfl
  case global => exact fun line names => rfl
  case ifElse =>
    intro line condition thenBlock elsifs elseBlock hthen helsifs helse
    rw [mapExpressions_ifElse, expressions_ifElse, expressions_ifElse, hthen]
    have hclauses : ((elsifs.map (Chain.map (Elsif.mapExpressions f))).map fun chain =>
          chain.toList.flatMap Elsif.expressions).getD [] =
        ((elsifs.map fun chain => chain.toList.flatMap Elsif.expressions).getD []).map f := by
      cases elsifs with
      | none => rfl
      | some chain => exact flatMap_map_eq_map_flatMap f (helsifs chain rfl)
    have hlast : ((elseBlock.map (Block.mapExpressions f)).map Block.expressions).getD [] =
        ((elseBlock.map Block.expressions).getD []).map f := by
      cases elseBlock with
      | none => rfl
      | some block => exact helse block rfl
    rw [hclauses, hlast, List.map_append, List.map_append, List.map_cons]
  case whileLoop =>
    intro line condition block hblock
    exact congrArg (f condition :: ·) hblock
  case forLoop =>
    intro line init condition post block hblock
    change (init.map f).toList ++ (condition.map f).toList ++ (post.map f).toList ++
      (block.mapExpressions f).expressions = _
    rw [hblock, Option.toList_map, Option.toList_map, Option.toList_map,
      ← List.map_append, ← List.map_append, ← List.map_append]
    rfl
  case returnWith =>
    intro line value
    exact Option.toList_map
  case breakLoop => exact fun line => rfl
  case continueLoop => exact fun line => rfl
  case elsif =>
    intro condition block hblock
    exact congrArg (f condition :: ·) hblock
  case block =>
    intro statements hstatements
    rw [Block.mapExpressions_mk, Block.expressions_mk, Block.expressions_mk]
    exact flatMap_map_eq_map_flatMap f hstatements

private theorem map_eq_self_of_mem_toList {optional : Option Expression}
    (h : ∀ e ∈ optional.toList, f e = e) : optional.map f = optional := by
  cases optional with
  | none => rfl
  | some e => exact congrArg some (h e List.mem_cons_self)

/-- A replacement that changes no expression of a program changes nothing. -/
theorem Statement.mapExpressions_eq_self :
    (∀ s : Statement, (∀ e ∈ s.expressions, f e = e) → s.mapExpressions f = s) ∧
    (∀ c : Elsif, (∀ e ∈ c.expressions, f e = e) → c.mapExpressions f = c) ∧
    ∀ b : Block, (∀ e ∈ b.expressions, f e = e) → b.mapExpressions f = b := by
  apply Statement.induction
  case expression =>
    intro line e h
    exact congrArg (Statement.expression line) (h e List.mem_cons_self)
  case global => exact fun line names _ => rfl
  case ifElse =>
    intro line condition thenBlock elsifs elseBlock hthen helsifs helse h
    rw [expressions_ifElse, List.cons_append, List.cons_append, List.forall_mem_cons,
      List.forall_mem_append, List.forall_mem_append] at h
    obtain ⟨hcondition, ⟨hthen', helsifs'⟩, helse'⟩ := h
    have hclauses : elsifs.map (Chain.map (Elsif.mapExpressions f)) = elsifs := by
      cases elsifs with
      | none => rfl
      | some chain =>
          refine congrArg some (Chain.map_eq_self fun c hc => helsifs chain rfl c hc ?_)
          exact fun e he => helsifs' e (List.mem_flatMap.mpr ⟨c, hc, he⟩)
    have hlast : elseBlock.map (Block.mapExpressions f) = elseBlock := by
      cases elseBlock with
      | none => rfl
      | some block => exact congrArg some (helse block rfl helse')
    rw [mapExpressions_ifElse, hcondition, hthen hthen', hclauses, hlast]
  case whileLoop =>
    intro line condition block hblock h
    obtain ⟨hcondition, hblock'⟩ := List.forall_mem_cons.mp h
    change Statement.whileLoop line (f condition) (block.mapExpressions f) = _
    rw [hcondition, hblock hblock']
  case forLoop =>
    intro line init condition post block hblock h
    change ∀ e ∈ init.toList ++ condition.toList ++ post.toList ++ block.expressions,
      f e = e at h
    simp only [List.forall_mem_append] at h
    obtain ⟨⟨⟨hinit, hcondition⟩, hpost⟩, hblock'⟩ := h
    change Statement.forLoop line (init.map f) (condition.map f) (post.map f)
      (block.mapExpressions f) = _
    rw [map_eq_self_of_mem_toList f hinit, map_eq_self_of_mem_toList f hcondition,
      map_eq_self_of_mem_toList f hpost, hblock hblock']
  case returnWith =>
    intro line value h
    exact congrArg (Statement.returnWith line) (map_eq_self_of_mem_toList f h)
  case breakLoop => exact fun line _ => rfl
  case continueLoop => exact fun line _ => rfl
  case elsif =>
    intro condition block hblock h
    obtain ⟨hcondition, hblock'⟩ := List.forall_mem_cons.mp h
    change Elsif.mk (f condition) (block.mapExpressions f) = _
    rw [hcondition, hblock hblock']
  case block =>
    intro statements hstatements h
    rw [Block.expressions_mk] at h
    have hfixed : statements.map (Statement.mapExpressions f) = statements.map id := by
      refine List.map_congr_left fun s hs => hstatements s hs fun e he => ?_
      exact h e (List.mem_flatMap.mpr ⟨s, hs, he⟩)
    rw [Block.mapExpressions_mk, hfixed, List.map_id]

/-! ## Products and functions -/

def Product.expressions : Product → List Expression
  | .expression e => [e]
  | .statement s => s.expressions
  | .elsif c => c.expressions
  | .block b => b.expressions
  | .names _ => []
  | .arguments list => list.toList
  | .statements list => list.toList.flatMap Statement.expressions
  | .elsifs list => list.toList.flatMap Elsif.expressions

/-- The expressions that stand in the body of a function; host functions have none. -/
def FunctionDefinition.expressions (d : FunctionDefinition) : List Expression :=
  match d.body with
  | .userDefined _ block => block.expressions
  | .native _ => []

/-- The translation that replaces the expressions and nothing else. -/
def Translation.ofExpressions : Translation where
  expression := f
  statement := Statement.mapExpressions f
  elsif := Elsif.mapExpressions f
  block := Block.mapExpressions f

theorem Product.expressions_ofExpressions (p : Product) :
    ((Translation.ofExpressions f).product p).expressions = p.expressions.map f := by
  obtain ⟨hstatement, helsif, hblock⟩ := Statement.expressions_mapExpressions f
  cases p with
  | expression e => rfl
  | statement s => exact hstatement s
  | elsif c => exact helsif c
  | block b => exact hblock b
  | names list => rfl
  | arguments list => rfl
  | statements list =>
      have hlist : ∀ s ∈ list.toList, (s.mapExpressions f).expressions =
        s.expressions.map f := fun s _ => hstatement s
      exact flatMap_map_eq_map_flatMap f hlist
  | elsifs list =>
      have hlist : ∀ c ∈ list.toList, (c.mapExpressions f).expressions =
        c.expressions.map f := fun c _ => helsif c
      exact flatMap_map_eq_map_flatMap f hlist

theorem FunctionDefinition.expressions_ofExpressions (d : FunctionDefinition) :
    ((Translation.ofExpressions f).definition d).expressions = d.expressions.map f := by
  obtain ⟨name, line, _ | _⟩ := d
  · exact (Statement.expressions_mapExpressions f).2.2 _
  · rfl

/-- A replacement that changes no expression of a product changes nothing. -/
theorem Product.ofExpressions_eq_self {p : Product} (h : ∀ e ∈ p.expressions, f e = e) :
    (Translation.ofExpressions f).product p = p := by
  obtain ⟨hstatement, helsif, hblock⟩ := Statement.mapExpressions_eq_self f
  cases p with
  | expression e => exact congrArg Product.expression (h e List.mem_cons_self)
  | statement s => exact congrArg Product.statement (hstatement s h)
  | elsif c => exact congrArg Product.elsif (helsif c h)
  | block b => exact congrArg Product.block (hblock b h)
  | names list => rfl
  | arguments list => exact congrArg Product.arguments (Chain.map_eq_self h)
  | statements list =>
      refine congrArg Product.statements (Chain.map_eq_self fun s hs => hstatement s ?_)
      exact fun e he => h e (List.mem_flatMap.mpr ⟨s, hs, he⟩)
  | elsifs list =>
      refine congrArg Product.elsifs (Chain.map_eq_self fun c hc => helsif c ?_)
      exact fun e he => h e (List.mem_flatMap.mpr ⟨c, hc, he⟩)

end MapExpressions

end ScriptTree
