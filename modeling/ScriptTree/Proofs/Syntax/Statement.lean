import ScriptTree.Proofs.Syntax.Expression
import ScriptTree.Statement

/-!
# Recursion and induction on statements

Statements, clauses and blocks contain each other.  As for expressions, an interpretation assigns
a meaning to each of them and is carried through whole trees once.  The expressions in a statement
are handed to the interpretation as they are.
-/

namespace ScriptTree

/-- A meaning for each kind of statement, for a clause and for a block, given the meanings of the
blocks and clauses inside. -/
structure Statement.Interpretation (α β γ : Type) where
  expression : Line → Expression → α
  global : Line → Chain String → α
  ifElse : Line → Expression → γ → Option (Chain β) → Option γ → α
  whileLoop : Line → Expression → γ → α
  forLoop : Line → Option Expression → Option Expression → Option Expression → γ → α
  returnWith : Line → Option Expression → α
  breakLoop : Line → α
  continueLoop : Line → α
  elsif : Expression → γ → β
  block : List α → γ

section Interpret

variable {α β γ : Type} (I : Statement.Interpretation α β γ)

mutual

/-- The meaning of a statement, from the innermost blocks up. -/
def Statement.interpret : Statement → α
  | .expression line e => I.expression line e
  | .global line names => I.global line names
  | .ifElse line condition thenBlock elsifs elseBlock =>
    I.ifElse line condition (Block.interpret thenBlock) (Elsif.interpretChain? elsifs)
      (Block.interpret? elseBlock)
  | .whileLoop line condition block =>
    I.whileLoop line condition (Block.interpret block)
  | .forLoop line init condition post block =>
    I.forLoop line init condition post (Block.interpret block)
  | .returnWith line value => I.returnWith line value
  | .breakLoop line => I.breakLoop line
  | .continueLoop line => I.continueLoop line

def Statement.interpretList : List Statement → List α
  | [] => []
  | s :: ss => Statement.interpret s :: Statement.interpretList ss

def Elsif.interpret : Elsif → β
  | ⟨condition, block⟩ => I.elsif condition (Block.interpret block)

def Elsif.interpretList : List Elsif → List β
  | [] => []
  | c :: cs => Elsif.interpret c :: Elsif.interpretList cs

def Elsif.interpretChain? : Option (Chain Elsif) → Option (Chain β)
  | none => none
  | some ⟨first, rest⟩ => some ⟨Elsif.interpret first, Elsif.interpretList rest⟩

def Block.interpret : Block → γ
  | ⟨statements⟩ => I.block (Statement.interpretList statements)

def Block.interpret? : Option Block → Option γ
  | none => none
  | some block => some (Block.interpret block)

end

theorem Statement.interpretList_eq_map (ss : List Statement) :
    Statement.interpretList I ss = ss.map (Statement.interpret I) := by
  induction ss with
  | nil => rfl
  | cons s ss ih => simp only [Statement.interpretList, List.map_cons, ih]

theorem Elsif.interpretList_eq_map (cs : List Elsif) :
    Elsif.interpretList I cs = cs.map (Elsif.interpret I) := by
  induction cs with
  | nil => rfl
  | cons c cs ih => simp only [Elsif.interpretList, List.map_cons, ih]

theorem Block.interpret_mk (statements : List Statement) :
    Block.interpret I ⟨statements⟩ =
      I.block (statements.map (Statement.interpret I)) := by
  simp only [Block.interpret, Statement.interpretList_eq_map]

/-- The clauses of a branch are interpreted one by one, and so is its last block. -/
theorem Statement.interpret_ifElse (line : Line) (condition : Expression)
    (thenBlock : Block) (elsifs : Option (Chain Elsif)) (elseBlock : Option Block) :
    Statement.interpret I (.ifElse line condition thenBlock elsifs elseBlock) =
      I.ifElse line condition (thenBlock.interpret I)
        (elsifs.map (Chain.map (Elsif.interpret I)))
        (elseBlock.map (Block.interpret I)) := by
  cases elsifs <;> cases elseBlock <;>
    simp only [Statement.interpret, Elsif.interpretChain?, Block.interpret?,
      Elsif.interpretList_eq_map, Option.map_none, Option.map_some, Chain.map]

end Interpret

/-- Induction on statements, clauses and blocks at once. -/
theorem Statement.induction {P : Statement → Prop} {Q : Elsif → Prop} {R : Block → Prop}
    (expression : ∀ line e, P (.expression line e))
    (global : ∀ line names, P (.global line names))
    (ifElse : ∀ line condition thenBlock elsifs elseBlock, R thenBlock →
      (∀ chain ∈ elsifs, ∀ c ∈ chain.toList, Q c) → (∀ block ∈ elseBlock, R block) →
        P (.ifElse line condition thenBlock elsifs elseBlock))
    (whileLoop : ∀ line condition block, R block → P (.whileLoop line condition block))
    (forLoop : ∀ line init condition post block, R block →
      P (.forLoop line init condition post block))
    (returnWith : ∀ line value, P (.returnWith line value))
    (breakLoop : ∀ line, P (.breakLoop line))
    (continueLoop : ∀ line, P (.continueLoop line))
    (elsif : ∀ condition block, R block → Q ⟨condition, block⟩)
    (block : ∀ statements : List Statement, (∀ s ∈ statements, P s) → R ⟨statements⟩) :
    (∀ s, P s) ∧ (∀ c, Q c) ∧ ∀ b, R b := by
  have hstatement : ∀ s, P s := by
    refine @Statement.rec P Q R
      (fun elsifs => ∀ chain ∈ elsifs, ∀ c ∈ chain.toList, Q c)
      (fun elseBlock => ∀ block ∈ elseBlock, R block)
      (fun statements => ∀ s ∈ statements, P s)
      (fun chain => ∀ c ∈ chain.toList, Q c)
      (fun clauses => ∀ c ∈ clauses, Q c)
      expression global ifElse whileLoop forLoop returnWith breakLoop continueLoop
      elsif block ?_ ?_ ?_ ?_ ?_ ?_ ?_ ?_ ?_
    · exact fun chain h => by cases h
    · intro chain ih other h
      cases h
      exact ih
    · exact fun block h => by cases h
    · intro block ih other h
      cases h
      exact ih
    · exact fun s h => by cases h
    · exact fun first rest hfirst hrest => List.forall_mem_cons.mpr ⟨hfirst, hrest⟩
    · exact fun first rest hfirst hrest => List.forall_mem_cons.mpr ⟨hfirst, hrest⟩
    · exact fun c h => by cases h
    · exact fun first rest hfirst hrest => List.forall_mem_cons.mpr ⟨hfirst, hrest⟩
  have hblock : ∀ b, R b := fun ⟨statements⟩ => block statements fun s _ => hstatement s
  exact ⟨hstatement, fun ⟨condition, b⟩ => elsif condition b (hblock b), hblock⟩

end ScriptTree
