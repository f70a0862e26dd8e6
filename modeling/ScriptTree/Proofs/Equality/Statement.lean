import ScriptTree.Proofs.Equality.Expression
import ScriptTree.Proofs.Syntax.Embedded

/-!
# Equality of statements

Statements, clauses and blocks are equal if they have the same shape and if the doubles in their
expressions stand for the same numbers.  The doubles of a statement are those of the expressions in
it, and its shape has the shapes of these expressions in their places.
-/

namespace ScriptTree

/-! ## Statements -/

/-- Statements without their doubles, and so clauses and blocks. -/
def Statement.blank : Statement → Statement := mapExpressions Expression.blank

def Elsif.blank : Elsif → Elsif := mapExpressions Expression.blank

def Block.blank : Block → Block := mapExpressions Expression.blank

def Statement.doubles (s : Statement) : List Float :=
  s.expressions.flatMap Expression.doubles

def Elsif.doubles (c : Elsif) : List Float :=
  c.expressions.flatMap Expression.doubles

def Block.doubles (b : Block) : List Float :=
  b.expressions.flatMap Expression.doubles

theorem Statement.length_doubles_eq (s t : Statement) (h : s.blank = t.blank) :
    s.doubles.length = t.doubles.length := by
  obtain ⟨hexpressions, -, -⟩ := expressions_mapExpressions Expression.blank
  refine length_flatMap_eq Expression.length_doubles_eq ?_
  rw [← hexpressions, ← hexpressions]
  exact congrArg expressions h

theorem Elsif.length_doubles_eq (c d : Elsif) (h : c.blank = d.blank) :
    c.doubles.length = d.doubles.length := by
  obtain ⟨-, hexpressions, -⟩ := Statement.expressions_mapExpressions Expression.blank
  refine length_flatMap_eq Expression.length_doubles_eq ?_
  rw [← hexpressions, ← hexpressions]
  exact congrArg expressions h

theorem Block.length_doubles_eq (b d : Block) (h : b.blank = d.blank) :
    b.doubles.length = d.doubles.length := by
  obtain ⟨-, -, hexpressions⟩ := Statement.expressions_mapExpressions Expression.blank
  refine length_flatMap_eq Expression.length_doubles_eq ?_
  rw [← hexpressions, ← hexpressions]
  exact congrArg expressions h

/-! ### Equality by constructor -/

theorem Statement.beqList_eq_beq (as bs : List Statement) : beqList as bs = (as == bs) := by
  induction as generalizing bs with
  | nil => cases bs <;> simp only [beqList] <;> rfl
  | cons a as ih =>
      cases bs with
      | nil => simp only [beqList]; rfl
      | cons b bs => rw [beqList, ih]; rfl

theorem Elsif.beqList_eq_beq (as bs : List Elsif) : beqList as bs = (as == bs) := by
  induction as generalizing bs with
  | nil => cases bs <;> simp only [beqList] <;> rfl
  | cons a as ih =>
      cases bs with
      | nil => simp only [beqList]; rfl
      | cons b bs => rw [beqList, ih]; rfl

theorem Elsif.beqChain?_eq_beq (c d : Option (Chain Elsif)) : beqChain? c d = (c == d) := by
  rcases c with _ | ⟨first, rest⟩ <;> rcases d with _ | ⟨first', rest'⟩ <;>
    simp only [beqChain?, Elsif.beqList_eq_beq] <;> rfl

theorem Block.beq?_eq_beq (b d : Option Block) : beq? b d = (b == d) := by
  cases b <;> cases d <;> simp only [beq?] <;> rfl

theorem Elsif.beq_mk (condition condition' : Expression) (block block' : Block) :
    (Elsif.mk condition block == .mk condition' block') =
      (condition == condition' && block == block') := by
  change Elsif.beq _ _ = _
  rw [Elsif.beq]
  rfl

theorem Block.beq_mk (statements statements' : List Statement) :
    (Block.mk statements == .mk statements') = (statements == statements') := by
  change Block.beq _ _ = _
  rw [Block.beq, Statement.beqList_eq_beq]

theorem Statement.beq_ifElse (line line' : Line) (condition condition' : Expression)
    (thenBlock thenBlock' : Block) (elsifs elsifs' : Option (Chain Elsif))
    (elseBlock elseBlock' : Option Block) :
    (ifElse line condition thenBlock elsifs elseBlock ==
        ifElse line' condition' thenBlock' elsifs' elseBlock') =
      (line == line' && condition == condition' && thenBlock == thenBlock' &&
        elsifs == elsifs' && elseBlock == elseBlock') := by
  change Statement.beq _ _ = _
  rw [Statement.beq, Elsif.beqChain?_eq_beq, Block.beq?_eq_beq]
  rfl

theorem Statement.ctorIdx_of_beq {s t : Statement} (h : (s == t) = true) :
    s.ctorIdx = t.ctorIdx := by
  change Statement.beq s t = true at h
  cases s <;> cases t <;> first | rfl | simp only [Statement.beq, Bool.false_eq_true] at h

theorem Statement.ctorIdx_of_blank_eq {s t : Statement} (h : s.blank = t.blank) :
    s.ctorIdx = t.ctorIdx := by
  have hblank : ∀ s : Statement, s.blank.ctorIdx = s.ctorIdx := fun s => by cases s <;> rfl
  rw [← hblank, h, hblank]

/-! ### Equality of statements -/

/-- An expression that may be left out compares like one that may not. -/
theorem Expression.comparesBy_option (e : Option Expression) :
    ComparesBy (Option.map blank) (fun e => e.toList.flatMap doubles) e := by
  have hdoubles : ∀ e : Option Expression, e.toList.flatMap doubles = (e.map doubles).getD [] := by
    rintro (_ | e)
    · rfl
    · exact List.flatMap_singleton doubles e
  intro f
  rw [funext hdoubles]
  exact ComparesBy.option (fun e _ => e.comparesBy) f

theorem Expression.length_doubles_option_eq (e f : Option Expression)
    (h : e.map blank = f.map blank) :
    (e.toList.flatMap doubles).length = (f.toList.flatMap doubles).length := by
  refine length_flatMap_eq Expression.length_doubles_eq ?_
  rw [← Option.toList_map, h, Option.toList_map]

/-- The doubles of the clauses of a branch. -/
def Elsif.doublesChain? (elsifs : Option (Chain Elsif)) : List Float :=
  (elsifs.map fun chain => chain.toList.flatMap doubles).getD []

theorem Elsif.length_doublesChain?_eq (elsifs elsifs' : Option (Chain Elsif))
    (h : elsifs.map (Chain.map blank) = elsifs'.map (Chain.map blank)) :
    (doublesChain? elsifs).length = (doublesChain? elsifs').length := by
  cases elsifs <;> cases elsifs'
  case some.some chain chain' =>
    refine length_flatMap_eq length_doubles_eq ?_
    rw [← Chain.toList_map, Option.some.inj h, Chain.toList_map]
  all_goals first | rfl | cases h

theorem Statement.doubles_ifElse (line : Line) (condition : Expression) (thenBlock : Block)
    (elsifs : Option (Chain Elsif)) (elseBlock : Option Block) :
    (ifElse line condition thenBlock elsifs elseBlock).doubles =
      condition.doubles ++ (thenBlock.doubles ++
        (Elsif.doublesChain? elsifs ++ (elseBlock.map Block.doubles).getD [])) := by
  rw [doubles, expressions_ifElse]
  have hclauses : ((elsifs.map fun chain => chain.toList.flatMap Elsif.expressions).getD []).flatMap
      Expression.doubles = Elsif.doublesChain? elsifs := by
    cases elsifs with
    | none => rfl
    | some chain => exact List.flatMap_assoc
  have hlast : ((elseBlock.map Block.expressions).getD []).flatMap Expression.doubles =
      (elseBlock.map Block.doubles).getD [] := by
    cases elseBlock <;> rfl
  rw [List.flatMap_append, List.flatMap_append, List.flatMap_cons, hclauses, hlast,
    List.append_assoc, List.append_assoc]
  rfl

theorem Statement.doubles_forLoop (line : Line) (init condition post : Option Expression)
    (block : Block) :
    (forLoop line init condition post block).doubles =
      init.toList.flatMap Expression.doubles ++ (condition.toList.flatMap Expression.doubles ++
        (post.toList.flatMap Expression.doubles ++ block.doubles)) := by
  change (init.toList ++ condition.toList ++ post.toList ++ block.expressions).flatMap _ = _
  rw [List.flatMap_append, List.flatMap_append, List.flatMap_append, List.append_assoc,
    List.append_assoc]
  rfl

/-! ### Statements with parts

Each of these takes the doubles of the parts apart from the right, so that the parts can be compared
one by one. -/

theorem Statement.beq_ifElse_iff {line line' : Line} {condition condition' : Expression}
    {thenBlock thenBlock' : Block} {elsifs elsifs' : Option (Chain Elsif)}
    {elseBlock elseBlock' : Option Block} (hthen : ComparesBy Block.blank Block.doubles thenBlock)
    (helsifs : ∀ chain ∈ elsifs, ∀ c ∈ chain.toList, ComparesBy Elsif.blank Elsif.doubles c)
    (helse : ∀ b ∈ elseBlock, ComparesBy Block.blank Block.doubles b) :
    (ifElse line condition thenBlock elsifs elseBlock ==
        ifElse line' condition' thenBlock' elsifs' elseBlock') = true ↔
      (ifElse line condition thenBlock elsifs elseBlock).blank =
          (ifElse line' condition' thenBlock' elsifs' elseBlock').blank ∧
        List.Forall₂ Double.SameNumber (ifElse line condition thenBlock elsifs elseBlock).doubles
          (ifElse line' condition' thenBlock' elsifs' elseBlock').doubles := by
  have hclauses := ComparesBy.option
    (fun chain hchain => ComparesBy.chain Elsif.length_doubles_eq (helsifs chain hchain)) elsifs'
  have hlast := ComparesBy.option helse
  change _ ↔ _ ∧ List.Forall₂ _ (Elsif.doublesChain? _) (Elsif.doublesChain? _) at hclauses
  rw [beq_ifElse, Statement.blank, mapExpressions_ifElse, mapExpressions_ifElse, doubles_ifElse,
    doubles_ifElse, ifElse.injEq]
  simp only [Bool.and_eq_true]
  rw [beq_iff_eq, condition.comparesBy, hthen, hclauses, hlast, and_assoc, and_assoc, and_assoc,
    ← and_forall₂_append_iff (Elsif.length_doublesChain?_eq elsifs elsifs'),
    ← and_forall₂_append_iff (Block.length_doubles_eq thenBlock thenBlock'),
    ← and_forall₂_append_iff (Expression.length_doubles_eq condition condition'), ← and_assoc]
  rfl

theorem Statement.beq_whileLoop_iff {line line' : Line} {condition condition' : Expression}
    {block block' : Block} (hblock : ComparesBy Block.blank Block.doubles block) :
    (whileLoop line condition block == whileLoop line' condition' block') = true ↔
      (whileLoop line condition block).blank = (whileLoop line' condition' block').blank ∧
        List.Forall₂ Double.SameNumber (whileLoop line condition block).doubles
          (whileLoop line' condition' block').doubles := by
  change Statement.beq _ _ = true ↔
    whileLoop line condition.blank block.blank = whileLoop line' condition'.blank block'.blank ∧
      List.Forall₂ _ (condition.doubles ++ block.doubles) (condition'.doubles ++ block'.doubles)
  rw [Statement.beq, Bool.and_eq_true, Bool.and_eq_true, beq_iff_eq, condition.comparesBy]
  change (_ ∧ (block == block') = true) ↔ _
  rw [hblock, and_assoc,
    ← and_forall₂_append_iff (Expression.length_doubles_eq condition condition'),
    whileLoop.injEq, ← and_assoc, and_assoc]

theorem Statement.beq_forLoop_iff {line line' : Line}
    {init init' condition condition' post post' : Option Expression} {block block' : Block}
    (hblock : ComparesBy Block.blank Block.doubles block) :
    (forLoop line init condition post block == forLoop line' init' condition' post' block') =
        true ↔
      (forLoop line init condition post block).blank =
          (forLoop line' init' condition' post' block').blank ∧
        List.Forall₂ Double.SameNumber (forLoop line init condition post block).doubles
          (forLoop line' init' condition' post' block').doubles := by
  rw [doubles_forLoop, doubles_forLoop]
  change Statement.beq _ _ = true ↔
    forLoop line (init.map _) (condition.map _) (post.map _) block.blank =
        forLoop line' (init'.map _) (condition'.map _) (post'.map _) block'.blank ∧ _
  rw [Statement.beq]
  simp only [Bool.and_eq_true]
  change (_ ∧ (block == block') = true) ↔ _
  rw [beq_iff_eq, Expression.comparesBy_option, Expression.comparesBy_option,
    Expression.comparesBy_option, hblock, and_assoc, and_assoc, and_assoc,
    ← and_forall₂_append_iff (Expression.length_doubles_option_eq post post'),
    ← and_forall₂_append_iff (Expression.length_doubles_option_eq condition condition'),
    ← and_forall₂_append_iff (Expression.length_doubles_option_eq init init'), ← and_assoc,
    forLoop.injEq]

/-! ### All statements -/

theorem Statement.comparesBy :
    (∀ s : Statement, ComparesBy blank doubles s) ∧
    (∀ c : Elsif, ComparesBy Elsif.blank Elsif.doubles c) ∧
    ∀ b : Block, ComparesBy Block.blank Block.doubles b := by
  apply Statement.induction
  case expression =>
    rintro line e (⟨line', e'⟩ | _)
    case expression =>
      change Statement.beq _ _ = true ↔
        Statement.expression line e.blank = .expression line' e'.blank ∧
          List.Forall₂ _ (e.doubles ++ []) (e'.doubles ++ [])
      rw [Statement.beq, Bool.and_eq_true, beq_iff_eq, e.comparesBy, expression.injEq, and_assoc,
        List.append_nil, List.append_nil]
    all_goals exact ComparesBy.iff_of_kind_ne ctorIdx_of_beq ctorIdx_of_blank_eq rfl
  case global =>
    rintro line names (_ | ⟨line', names'⟩ | _)
    case global =>
      change Statement.beq _ _ = true ↔
        Statement.global line names = .global line' names' ∧ List.Forall₂ _ [] []
      rw [Statement.beq, Bool.and_eq_true, beq_iff_eq, beq_iff_eq, global.injEq]
      exact (and_iff_left List.Forall₂.nil).symm
    all_goals exact ComparesBy.iff_of_kind_ne ctorIdx_of_beq ctorIdx_of_blank_eq rfl
  case ifElse =>
    rintro line condition thenBlock elsifs elseBlock hthen helsifs helse (_ | _ | _ | _)
    case ifElse => exact beq_ifElse_iff hthen helsifs helse
    all_goals exact ComparesBy.iff_of_kind_ne ctorIdx_of_beq ctorIdx_of_blank_eq rfl
  case whileLoop =>
    rintro line condition block hblock (_ | _ | _ | _ | _)
    case whileLoop => exact beq_whileLoop_iff hblock
    all_goals exact ComparesBy.iff_of_kind_ne ctorIdx_of_beq ctorIdx_of_blank_eq rfl
  case forLoop =>
    rintro line init condition post block hblock (_ | _ | _ | _ | _ | _)
    case forLoop => exact beq_forLoop_iff hblock
    all_goals exact ComparesBy.iff_of_kind_ne ctorIdx_of_beq ctorIdx_of_blank_eq rfl
  case returnWith =>
    rintro line value (_ | _ | _ | _ | _ | ⟨line', value'⟩ | _)
    case returnWith =>
      change Statement.beq _ _ = true ↔
        Statement.returnWith line (value.map _) = .returnWith line' (value'.map _) ∧ _
      rw [Statement.beq, Bool.and_eq_true, beq_iff_eq, Expression.comparesBy_option,
        returnWith.injEq, and_assoc]
      rfl
    all_goals exact ComparesBy.iff_of_kind_ne ctorIdx_of_beq ctorIdx_of_blank_eq rfl
  case breakLoop =>
    rintro line (_ | _ | _ | _ | _ | _ | ⟨line'⟩ | _)
    case breakLoop =>
      change Statement.beq _ _ = true ↔
        Statement.breakLoop line = .breakLoop line' ∧ List.Forall₂ _ [] []
      rw [Statement.beq, beq_iff_eq, breakLoop.injEq]
      exact (and_iff_left List.Forall₂.nil).symm
    all_goals exact ComparesBy.iff_of_kind_ne ctorIdx_of_beq ctorIdx_of_blank_eq rfl
  case continueLoop =>
    rintro line (_ | _ | _ | _ | _ | _ | _ | ⟨line'⟩)
    case continueLoop =>
      change Statement.beq _ _ = true ↔
        Statement.continueLoop line = .continueLoop line' ∧ List.Forall₂ _ [] []
      rw [Statement.beq, beq_iff_eq, continueLoop.injEq]
      exact (and_iff_left List.Forall₂.nil).symm
    all_goals exact ComparesBy.iff_of_kind_ne ctorIdx_of_beq ctorIdx_of_blank_eq rfl
  case elsif =>
    rintro condition block hblock ⟨condition', block'⟩
    change _ ↔ Elsif.mk condition.blank block.blank = .mk condition'.blank block'.blank ∧
      List.Forall₂ _ (condition.doubles ++ block.doubles) (condition'.doubles ++ block'.doubles)
    rw [Elsif.beq_mk, Bool.and_eq_true, condition.comparesBy, hblock,
      ← and_forall₂_append_iff (Expression.length_doubles_eq condition condition'),
      Elsif.mk.injEq]
  case block =>
    rintro statements hstatements ⟨statements'⟩
    have hlist := ComparesBy.list length_doubles_eq hstatements statements'
    have hdoubles : ∀ statements : List Statement,
        (Block.mk statements).doubles = statements.flatMap doubles := by
      intro statements
      rw [Block.doubles, Block.expressions_mk, List.flatMap_assoc]
      rfl
    rw [Block.beq_mk, hlist, hdoubles, hdoubles, Block.blank, Block.mapExpressions_mk,
      Block.mapExpressions_mk, Block.mk.injEq]
    rfl

end ScriptTree
