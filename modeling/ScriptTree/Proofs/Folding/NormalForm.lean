import ScriptTree.Proofs.Construction.Replay
import ScriptTree.Proofs.Folding.Simulation

/-!
# The normal form of folding

A tree is folded when no node of it could still be replaced by a literal.  Sessions that fold build
folded trees only, and they build every folded tree: replaying one gives it back unchanged.
-/

namespace ScriptTree

namespace Expression

/-! ## Folded trees -/

/-- A node that stays: no minus before a number literal, and no operator between two of them unless
it is logical or divides by zero. -/
def IsReduced : Expression → Prop
  | .minus _ (.literal _ a) => a.isNumber = false
  | .binary _ op (.literal _ a) (.literal _ b) =>
    a.isNumber → b.isNumber → op.isLogical ∨ DividesByZero op a b
  | _ => True

/-- A tree in which every node stays. -/
def IsFolded (e : Expression) : Prop :=
  ∀ n ∈ e.nodes, n.IsReduced

theorem isReduced_minus {line : Line} {operand : Expression} :
    (minus line operand).IsReduced ↔ operand.foldable? = none := by
  cases operand with
  | literal l a => cases a <;> simp [IsReduced, foldable?, Value.isNumber]
  | _ => simp [IsReduced, foldable?]

theorem isReduced_binary {line : Line} {op : BinaryOperator} {left right : Expression} :
    (binary line op left right).IsReduced ↔
      ∀ a b, left.foldable? = some a → right.foldable? = some b →
        op.isLogical = true ∨ DividesByZero op a b := by
  simp only [foldable?_eq_some_iff]
  constructor
  · rintro h a b ⟨ha, l, rfl⟩ ⟨hb, r, rfl⟩
    exact h ha hb
  · intro h
    cases left with
    | literal l a =>
        cases right with
        | literal r b => exact fun ha hb => h a b ⟨ha, l, rfl⟩ ⟨hb, r, rfl⟩
        | _ => trivial
    | _ => trivial

theorem isFolded_minus {line : Line} {operand : Expression} :
    (minus line operand).IsFolded ↔ operand.foldable? = none ∧ operand.IsFolded := by
  rw [IsFolded, nodes, List.forall_mem_cons, isReduced_minus]
  rfl

theorem isFolded_binary {line : Line} {op : BinaryOperator} {left right : Expression} :
    (binary line op left right).IsFolded ↔
      (binary line op left right).IsReduced ∧ left.IsFolded ∧ right.IsFolded := by
  rw [IsFolded, nodes, List.cons_append, List.forall_mem_cons, List.forall_mem_append]
  rfl

theorem isFolded_assign {line : Line} {target : String} {operand : Expression} :
    (assign line target operand).IsFolded ↔ operand.IsFolded := by
  rw [IsFolded, nodes, List.forall_mem_cons]
  exact and_iff_right trivial

theorem isFolded_literal (line : Line) (value : Value) : (literal line value).IsFolded :=
  List.forall_mem_singleton.mpr trivial

theorem isFolded_call {line : Line} {name : String} {arguments : Option (Chain Expression)} :
    (call line name arguments).IsFolded ↔
      ∀ chain ∈ arguments, ∀ e ∈ chain.toList, e.IsFolded := by
  have hroot : (call line name arguments).IsReduced := trivial
  rw [IsFolded, nodes_call, List.forall_mem_cons, and_iff_right hroot]
  cases arguments with
  | none => simp
  | some chain =>
      simp only [Option.map_some, Option.getD_some, List.mem_flatMap, Option.mem_some_iff,
        forall_eq', forall_exists_index, and_imp]
      exact ⟨fun h e he n hn => h n e he hn, fun h n e he hn => h e he n hn⟩

/-! ## Folding reaches the normal form -/

theorem isFolded_reduceMinus {line : Line} {operand : Expression} (h : operand.IsFolded) :
    (reduceMinus line operand).IsFolded := by
  rcases reduceMinus_cases line operand with ⟨a, value, -, -, hliteral⟩ | ⟨hnone, hkept⟩
  · rw [hliteral]
    exact isFolded_literal line value
  · rw [hkept, isFolded_minus]
    exact ⟨hnone, h⟩

theorem isFolded_reduceBinary {line : Line} {op : BinaryOperator} {left right : Expression}
    (hleft : left.IsFolded) (hright : right.IsFolded) :
    (reduceBinary line op left right).IsFolded := by
  rcases reduceBinary_cases line op left right with
    ⟨a, b, value, -, -, -, -, hliteral⟩ | ⟨hreason, hkept⟩
  · rw [hliteral]
    exact isFolded_literal line value
  · rw [hkept, isFolded_binary, isReduced_binary]
    exact ⟨hreason, hleft, hright⟩

/-- One pass is enough: a literal that only folding made is folded with. -/
theorem isFolded_foldTree (e : Expression) : e.foldTree.IsFolded := by
  induction e with
  | literal line value => exact isFolded_literal line value
  | identifier line name => exact List.forall_mem_singleton.mpr trivial
  | assign line target operand ih => exact isFolded_assign.mpr ih
  | binary line op left right ihleft ihright => exact isFolded_reduceBinary ihleft ihright
  | minus line operand ih => exact isFolded_reduceMinus ih
  | call line name arguments ih =>
      rw [foldTree_call, isFolded_call]
      rintro chain hchain e he
      obtain ⟨original, horiginal, rfl⟩ := Option.map_eq_some_iff.mp hchain
      rw [Chain.toList_map] at he
      obtain ⟨argument, hargument, rfl⟩ := List.mem_map.mp he
      exact ih original horiginal argument hargument

example :
    (minus 3 (binary 2 .add (literal 1 (.integer 1)) (literal 1 (.integer 2)))).foldTree =
      literal 3 (.integer (-3)) := rfl

/-! ## Folding stops at the normal form -/

theorem reduceMinus_eq_self {line : Line} {operand : Expression}
    (h : (minus line operand).IsReduced) : reduceMinus line operand = .minus line operand := by
  rw [reduceMinus, isReduced_minus.mp h]
  rfl

theorem reduceBinary_eq_self {line : Line} {op : BinaryOperator} {left right : Expression}
    (h : (binary line op left right).IsReduced) :
    reduceBinary line op left right = .binary line op left right := by
  rcases reduceBinary_cases line op left right with
    ⟨a, b, value, ha, hb, hop, hvalue, -⟩ | ⟨-, hkept⟩
  · -- The operator has a result here, so it neither is logical nor divides by zero.
    rcases isReduced_binary.mp h a b ha hb with hlogical | hzero
    · rw [hop] at hlogical
      cases hlogical
    · have ha' := (foldable?_eq_some_iff.mp ha).1
      have hb' := (foldable?_eq_some_iff.mp hb).1
      exact absurd hzero ((op.exists_eval_iff hop ha' hb').mp ⟨value, hvalue⟩)
  · exact hkept

/-- A folded tree is left as it is. -/
theorem foldTree_eq_self {e : Expression} (h : e.IsFolded) : e.foldTree = e := by
  induction e with
  | literal line value => rfl
  | identifier line name => rfl
  | assign line target operand ih =>
      exact congrArg (assign line target) (ih (isFolded_assign.mp h))
  | binary line op left right ihleft ihright =>
      obtain ⟨hroot, hleft, hright⟩ := isFolded_binary.mp h
      change reduceBinary line op left.foldTree right.foldTree = _
      rw [ihleft hleft, ihright hright, reduceBinary_eq_self hroot]
  | minus line operand ih =>
      obtain ⟨hroot, hoperand⟩ := isFolded_minus.mp h
      change reduceMinus line operand.foldTree = _
      rw [ih hoperand, reduceMinus_eq_self (isReduced_minus.mpr hroot)]
  | call line name arguments ih =>
      have hfolded := isFolded_call.mp h
      have harguments : arguments.map (Chain.map foldTree) = arguments := by
        cases arguments with
        | none => rfl
        | some chain =>
            refine congrArg some (Chain.map_eq_self fun e he => ?_)
            exact ih chain rfl e he (hfolded chain rfl e he)
      rw [foldTree_call, harguments]

end Expression

/-! ## Programs -/

def Product.IsFolded (p : Product) : Prop :=
  ∀ e ∈ p.expressions, e.IsFolded

def FunctionDefinition.IsFolded (f : FunctionDefinition) : Prop :=
  ∀ e ∈ f.expressions, e.IsFolded

theorem Product.isFolded_folding (p : Product) : (Translation.folding.product p).IsFolded := by
  rw [IsFolded, Translation.folding, expressions_ofExpressions]
  rintro e he
  obtain ⟨original, -, rfl⟩ := List.mem_map.mp he
  exact original.isFolded_foldTree

theorem FunctionDefinition.isFolded_folding (f : FunctionDefinition) :
    (Translation.folding.definition f).IsFolded := by
  rw [IsFolded, Translation.folding, expressions_ofExpressions]
  rintro e he
  obtain ⟨original, -, rfl⟩ := List.mem_map.mp he
  exact original.isFolded_foldTree

/-- Whatever folding sessions have built is folded. -/
theorem isFolded_of_runStepsOn {firstLines : Array Line} {steps : List (Nat × Step)}
    {ss : Array Session} {ps : Products}
    (h : runStepsOn (firstLines.map fun line => .start ⟨true, line⟩) #[] steps =
      some (ss, ps)) :
    (∀ p ∈ ps, p.IsFolded) ∧ ∀ s ∈ ss, ∀ f ∈ s.functions.toList, f.IsFolded := by
  rw [runStepsOn_folding, Option.map_eq_some_iff] at h
  obtain ⟨⟨plain, originals⟩, -, hstate⟩ := h
  obtain ⟨rfl, rfl⟩ := Prod.mk.inj hstate
  constructor
  · intro p hp
    obtain ⟨original, -, rfl⟩ := Array.mem_map.mp hp
    exact original.isFolded_folding
  · intro s hs f hf
    obtain ⟨t, -, rfl⟩ := Array.mem_map.mp hs
    change f ∈ (Translation.folding.table t.functions).toList at hf
    rw [Translation.toList_table] at hf
    obtain ⟨original, -, rfl⟩ := List.mem_map.mp hf
    exact original.isFolded_folding

theorem Translation.folding_reaches : Translation.folding.Reaches true :=
  fun _ hs => Translation.folding_commutes rfl hs rfl

/-- Replaying a folded tree on a session that folds gives it back. -/
theorem Product.replay_of_isFolded {p : Product} (h : p.IsFolded) : Yields true p.replay p := by
  have hreplay := p.yields_replay Translation.folding_reaches
  rwa [Translation.folding, Product.ofExpressions_eq_self _ fun e he =>
    Expression.foldTree_eq_self (h e he)] at hreplay

/-- Folding is complete: sessions that fold leave nothing to fold, in no tree and in the body of no
function, even if they pass trees to each other; and they go on as long as every step finds its
session and its parts.  Folding stops there: whatever has nothing to fold comes out of a replay as
it went in. -/
theorem folding_complete_and_stable :
    (∀ (firstLines : Array Line) (steps : List (Nat × Step)),
      (runStepsOn (firstLines.map fun line => .start ⟨true, line⟩) #[] steps).isSome =
          (steps.all (fun action => decide (action.1 < firstLines.size)) &&
            stepsFit #[] (steps.map Prod.snd)) ∧
        ∀ (ss : Array Session) (ps : Products),
          runStepsOn (firstLines.map fun line => .start ⟨true, line⟩) #[] steps =
              some (ss, ps) →
            (∀ p ∈ ps, p.IsFolded) ∧
            ∀ s ∈ ss, ∀ f ∈ s.functions.toList, f.IsFolded) ∧
    ∀ p : Product, p.IsFolded →
      ∀ s : Session, s.options.constantFolding = true →
        ∃ line, p.replay.run s = (p, s.setLine line) := by
  constructor
  · intro firstLines steps
    constructor
    · rw [isSome_runStepsOn, Products.kinds_empty, Array.size_map]
    · intro ss ps hrun
      exact isFolded_of_runStepsOn hrun
  · intro p hp
    exact Product.replay_of_isFolded hp

/-- The quotient `2 / 0` as a session at line 5 builds it from operands of line 1. -/
def zeroQuotient : Expression :=
  .binary 5 .div (.literal 1 (.integer 2)) (.literal 1 (.integer 0))

/-- Builds the quotient on two sessions in turn and a function that returns it. -/
def zeroQuotientSteps : List (Nat × Step) :=
  [(0, .literal (.integer 2)), (0, .literal (.integer 0)), (1, .binary .div 0 1),
    (0, .returnWith (some 2)), (0, .newStatements 3), (0, .block (some 4)),
    (0, .define "f" none 5)]

/-- A quotient without a result is left by folding, and a replay gives it back. -/
theorem folded_zeroQuotient :
    ∃ (ss : Array Session) (ps : Products),
      runStepsOn (#[1, 5].map fun line => .start ⟨true, line⟩) #[] zeroQuotientSteps =
        some (ss, ps) ∧
      ps[2]? = some (.expression zeroQuotient) ∧
      ((∀ p ∈ ps, p.IsFolded) ∧ ∀ s ∈ ss, ∀ f ∈ s.functions.toList, f.IsFolded) ∧
      ∃ line, (Product.expression zeroQuotient).replay.run (.start ⟨true, 9⟩) =
        (.expression zeroQuotient, Session.setLine (.start ⟨true, 9⟩) line) := by
  obtain ⟨ss, ps, hrun, hquotient⟩ : ∃ (ss : Array Session) (ps : Products),
      runStepsOn (#[1, 5].map fun line => .start ⟨true, line⟩) #[] zeroQuotientSteps =
        some (ss, ps) ∧ ps[2]? = some (.expression zeroQuotient) := by
    rw [List.map_toArray]
    exact ⟨_, _, rfl, rfl⟩
  obtain ⟨hbuilt, hreplay⟩ := folding_complete_and_stable
  have hfolded := (hbuilt _ _).2 ss ps hrun
  have hmem := Array.mem_of_getElem? hquotient
  exact ⟨ss, ps, hrun, hquotient, hfolded, hreplay _ (hfolded.1 _ hmem) _ rfl⟩

end ScriptTree
