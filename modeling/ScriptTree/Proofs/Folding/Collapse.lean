import ScriptTree.Proofs.Evaluation.Kind
import ScriptTree.Proofs.Folding.Strict

/-!
# Which trees become literals

Folding looks at one node at a time, but what becomes a literal can be said of whole descriptions.
An arithmetic description becomes its value if it has one, and a comparison of two such descriptions
becomes a boolean.  There it ends: a boolean takes no part in folding.  The only thing that keeps an
arithmetic description from its value is a division by zero, and this division is still there in the
tree.
-/

namespace ScriptTree

namespace Expression

/-! ## Descriptions -/

/-- Numbers under arithmetic operators and minuses. -/
def IsArithmetic : Expression → Prop :=
  ConsistsOf (fun value => value.isNumber) (fun op => op.isArithmetic)

/-- An arithmetic description that evaluates without error. -/
def IsComputable (e : Expression) : Prop :=
  e.IsArithmetic ∧ ∃ v, e.evaluate = some (.ok v)

/-- The descriptions that become literals. -/
inductive IsCollapsible : Expression → Prop where
  | literal (line : Line) (value : Value) : IsCollapsible (.literal line value)
  | computable {e : Expression} : e.IsComputable → IsCollapsible e
  | comparison (line : Line) {op : BinaryOperator} {left right : Expression} :
      op.isComparison → left.IsComputable → right.IsComputable →
      IsCollapsible (.binary line op left right)

/-- A quotient or remainder of an integer literal by the literal zero. -/
def IsZeroDivision (n : Expression) : Prop :=
  ∃ line op l m r, (op = .div ∨ op = .mod) ∧
    n = .binary line op (.literal l (.integer m)) (.literal r (.integer 0))

/-- There is such a node somewhere in the tree. -/
def HasZeroDivision (e : Expression) : Prop :=
  ∃ n ∈ e.nodes, n.IsZeroDivision

/-- What becomes of a description. -/
structure CollapsesTo (e built : Expression) : Prop where
  literal_iff : (∃ line value, built = .literal line value) ↔ e.IsCollapsible
  literal : ∀ line value, built = .literal line value →
    line = e.line ∧ e.evaluate = some (.ok value)
  /-- An arithmetic description without a value fails with a division by zero, which is kept. -/
  stuck : e.IsArithmetic → (∀ v, e.evaluate ≠ some (.ok v)) →
    e.evaluate = some (.error .divisionByZero) ∧ built.HasZeroDivision

/-! ## Divisions by zero that are kept -/

section ZeroDivision

variable {e left right : Expression}

theorem HasZeroDivision.ne_literal (h : e.HasZeroDivision) (line : Line) (value : Value) :
    e ≠ .literal line value := by
  rintro rfl
  obtain ⟨n, hn, line', op, l, m, r, -, rfl⟩ := h
  cases List.mem_singleton.mp hn

theorem HasZeroDivision.foldable?_eq_none (h : e.HasZeroDivision) : e.foldable? = none := by
  cases he : e.foldable? with
  | none => rfl
  | some a =>
      obtain ⟨-, line, hliteral⟩ := foldable?_eq_some_iff.mp he
      exact absurd hliteral (h.ne_literal line a)

theorem HasZeroDivision.reduceMinus (h : e.HasZeroDivision) (line : Line) :
    (reduceMinus line e).HasZeroDivision := by
  rw [reduceMinus_eq_self (isReduced_minus.mpr h.foldable?_eq_none)]
  obtain ⟨n, hn, hzero⟩ := h
  exact ⟨n, List.mem_cons_of_mem _ hn, hzero⟩

/-- An operator keeps its operands if there is such a division in one of them. -/
theorem HasZeroDivision.reduceBinary (h : left.HasZeroDivision ∨ right.HasZeroDivision)
    (line : Line) (op : BinaryOperator) : (reduceBinary line op left right).HasZeroDivision := by
  have hreduced : (binary line op left right).IsReduced := by
    rw [isReduced_binary]
    intro a b ha hb
    rcases h with h | h
    · rw [h.foldable?_eq_none] at ha
      cases ha
    · rw [h.foldable?_eq_none] at hb
      cases hb
  rw [reduceBinary_eq_self hreduced]
  rcases h with ⟨n, hn, hzero⟩ | ⟨n, hn, hzero⟩
  · exact ⟨n, List.mem_append_left _ (List.mem_cons_of_mem _ hn), hzero⟩
  · exact ⟨n, List.mem_append_right _ hn, hzero⟩

theorem hasZeroDivision_of_dividesByZero {op : BinaryOperator} {a b : Value}
    (h : DividesByZero op a b) (line l r : Line) :
    (Expression.reduceBinary line op (.literal l a) (.literal r b)).HasZeroDivision := by
  have hreduced : (binary line op (.literal l a) (.literal r b)).IsReduced :=
    fun _ _ => Or.inr h
  rw [reduceBinary_eq_self hreduced]
  obtain ⟨hop, ha, rfl⟩ := h
  cases a <;> cases ha
  exact ⟨_, List.mem_cons_self, line, op, l, _, r, hop, rfl⟩

end ZeroDivision

/-! ## Arithmetic descriptions -/

/-- Folding comes to the same end as evaluation: a value, which is a number, or a division by
zero. -/
def FoldsAsEvaluated (e : Expression) : Prop :=
  (∃ v, v.isNumber ∧ e.evaluate = some (.ok v) ∧ e.foldTree = .literal e.line v) ∨
    (e.evaluate = some (.error .divisionByZero) ∧ e.foldTree.HasZeroDivision)

theorem FoldsAsEvaluated.minus {operand : Expression} (h : operand.FoldsAsEvaluated)
    (line : Line) : (minus line operand).FoldsAsEvaluated := by
  have hroot : (Expression.minus line operand).foldTree = .reduceMinus line operand.foldTree := rfl
  rw [FoldsAsEvaluated, hroot]
  rcases h with ⟨a, ha, heval, hfold⟩ | ⟨heval, hzero⟩
  · left
    obtain ⟨v, hv, hnumber⟩ := Value.exists_negate_of_isNumber ha
    have hvalue : (Expression.minus line operand).evaluate = some (.ok v) := by
      rw [evaluate_minus_of_ok heval, hv]
    have hfoldable := foldable?_eq_some_iff.mpr ⟨ha, _, hfold⟩
    exact ⟨v, hnumber, hvalue, reduceMinus_of_negate hfoldable hv line⟩
  · exact Or.inr ⟨Domain.evaluate_minus heval line, hzero.reduceMinus line⟩

theorem FoldsAsEvaluated.binary {op : BinaryOperator} {left right : Expression}
    (hop : op.isArithmetic) (hleft : left.FoldsAsEvaluated) (hright : right.FoldsAsEvaluated)
    (line : Line) : (binary line op left right).FoldsAsEvaluated := by
  have hroot : (Expression.binary line op left right).foldTree =
      .reduceBinary line op left.foldTree right.foldTree := rfl
  rw [FoldsAsEvaluated, hroot]
  rcases hleft with ⟨a, ha, hevall, hfoldl⟩ | ⟨hevall, hzero⟩
  · rcases hright with ⟨b, hb, hevalr, hfoldr⟩ | ⟨hevalr, hzero⟩
    · rw [evaluate_binary_of_ok hevall hevalr]
      by_cases hzero : DividesByZero op a b
      · right
        rw [BinaryOperator.eval_of_dividesByZero hzero, hfoldl, hfoldr]
        exact ⟨rfl, hasZeroDivision_of_dividesByZero hzero line _ _⟩
      · left
        have hlogical := BinaryOperator.isLogical_eq_false_iff.mpr (Or.inl hop)
        obtain ⟨v, hv⟩ := (op.exists_eval_iff hlogical ha hb).mpr hzero
        have hnumber := (BinaryOperator.isNumber_eval_iff ha hb hv).mpr hop
        have hl := foldable?_eq_some_iff.mpr ⟨ha, _, hfoldl⟩
        have hr := foldable?_eq_some_iff.mpr ⟨hb, _, hfoldr⟩
        exact ⟨v, hnumber, congrArg some hv, reduceBinary_of_eval hlogical hl hr hv line⟩
    · right
      exact ⟨Domain.evaluate_binary hevall hevalr line op,
        HasZeroDivision.reduceBinary (Or.inr hzero) line op⟩
  · right
    -- The right operand is not evaluated any more, whatever its outcome would be.
    have hrest : ∃ outcome, right.evaluate = some outcome := by
      rcases hright with ⟨b, -, hevalr, -⟩ | ⟨hevalr, -⟩
      · exact ⟨_, hevalr⟩
      · exact ⟨_, hevalr⟩
    obtain ⟨outcome, hevalr⟩ := hrest
    exact ⟨Domain.evaluate_binary hevall hevalr line op,
      HasZeroDivision.reduceBinary (Or.inl hzero) line op⟩

theorem foldsAsEvaluated_of_isArithmetic {e : Expression} (he : e.IsArithmetic) :
    e.FoldsAsEvaluated := by
  induction he with
  | literal line hvalue => exact Or.inl ⟨_, hvalue, rfl, rfl⟩
  | minus line _ ih => exact ih.minus line
  | binary line hop _ _ ihleft ihright => exact ihleft.binary hop ihright line

/-- What is computable is a number literal once it is folded. -/
theorem IsComputable.foldTree_eq {e : Expression} (h : e.IsComputable) :
    ∃ v, v.isNumber ∧ e.evaluate = some (.ok v) ∧ e.foldTree = .literal e.line v := by
  obtain ⟨harithmetic, v, hv⟩ := h
  rcases foldsAsEvaluated_of_isArithmetic harithmetic with hvalue | ⟨hzero, -⟩
  · exact hvalue
  · rw [hv] at hzero
    cases hzero

/-! ## Descriptions that become literals -/

/-- A comparison gives a boolean, so what gives a number is not one. -/
theorem IsCollapsible.isComputable {e : Expression} {v : Value} (h : e.IsCollapsible)
    (heval : e.evaluate = some (.ok v)) (hv : v.isNumber) : e.IsComputable := by
  cases h with
  | literal line value =>
      cases heval
      exact ⟨.literal line hv, value, rfl⟩
  | computable hcomputable => exact hcomputable
  | @comparison line op left right hop hleft hright =>
      exfalso
      obtain ⟨a, ha, hevall, -⟩ := hleft.foldTree_eq
      obtain ⟨b, hb, hevalr, -⟩ := hright.foldTree_eq
      rw [evaluate_binary_of_ok hevall hevalr, Option.some.injEq] at heval
      have harithmetic := (BinaryOperator.isNumber_eval_iff ha hb heval).mp hv
      cases op <;> cases hop <;> cases harithmetic

/-- What becomes a literal is of one of the three forms, and the literal has its value at the line
of its root. -/
theorem isCollapsible_of_foldTree {e : Expression} {line : Line} {value : Value}
    (h : e.foldTree = .literal line value) :
    e.IsCollapsible ∧ line = e.line ∧ e.evaluate = some (.ok value) := by
  induction e generalizing line value with
  | literal l v =>
      cases h
      exact ⟨.literal l v, rfl, rfl⟩
  | binary l op left right ihleft ihright =>
      change reduceBinary l op left.foldTree right.foldTree = _ at h
      rcases reduceBinary_cases l op left.foldTree right.foldTree with
        ⟨a, b, v, ha, hb, hop, hv, hliteral⟩ | ⟨-, hkept⟩
      · cases hliteral.symm.trans h
        -- Number literals under the node come from computable operands.
        obtain ⟨ha, _, hl⟩ := foldable?_eq_some_iff.mp ha
        obtain ⟨hb, _, hr⟩ := foldable?_eq_some_iff.mp hb
        obtain ⟨hleft, -, hevall⟩ := ihleft hl
        obtain ⟨hright, -, hevalr⟩ := ihright hr
        have hleft := hleft.isComputable hevall ha
        have hright := hright.isComputable hevalr hb
        have heval : (binary l op left right).evaluate = some (.ok value) := by
          rw [evaluate_binary_of_ok hevall hevalr, hv]
        refine ⟨?_, rfl, heval⟩
        rcases BinaryOperator.isLogical_eq_false_iff.mp hop with hop | hop
        · exact .computable ⟨.binary l hop hleft.1 hright.1, value, heval⟩
        · exact .comparison l hop hleft hright
      · cases hkept.symm.trans h
  | minus l operand ih =>
      change reduceMinus l operand.foldTree = _ at h
      rcases reduceMinus_cases l operand.foldTree with ⟨a, v, ha, hv, hliteral⟩ | ⟨-, hkept⟩
      · cases hliteral.symm.trans h
        obtain ⟨ha, _, hl⟩ := foldable?_eq_some_iff.mp ha
        obtain ⟨hoperand, -, hevala⟩ := ih hl
        have hoperand := hoperand.isComputable hevala ha
        have heval : (minus l operand).evaluate = some (.ok value) := by
          rw [evaluate_minus_of_ok hevala, hv]
        exact ⟨.computable ⟨.minus l hoperand.1, value, heval⟩, rfl, heval⟩
      · cases hkept.symm.trans h
  | call l name arguments _ =>
      rw [foldTree_call] at h
      cases h
  | _ => cases h

/-- Whatever is of one of the three forms becomes a literal. -/
theorem IsCollapsible.exists_foldTree {e : Expression} (h : e.IsCollapsible) :
    ∃ line value, e.foldTree = .literal line value := by
  cases h with
  | literal line value => exact ⟨line, value, rfl⟩
  | computable hcomputable =>
      obtain ⟨v, -, -, hfold⟩ := hcomputable.foldTree_eq
      exact ⟨e.line, v, hfold⟩
  | @comparison line op left right hop hleft hright =>
      obtain ⟨a, ha, -, hfoldl⟩ := hleft.foldTree_eq
      obtain ⟨b, hb, -, hfoldr⟩ := hright.foldTree_eq
      have hlogical := BinaryOperator.isLogical_eq_false_iff.mpr (Or.inr hop)
      have hzero : ¬ DividesByZero op a b := by
        rintro ⟨rfl | rfl, -, -⟩ <;> cases hop
      obtain ⟨v, hv⟩ := (op.exists_eval_iff hlogical ha hb).mpr hzero
      have hl := foldable?_eq_some_iff.mpr ⟨ha, _, hfoldl⟩
      have hr := foldable?_eq_some_iff.mpr ⟨hb, _, hfoldr⟩
      exact ⟨line, v, reduceBinary_of_eval hlogical hl hr hv line⟩

theorem collapsesTo_foldTree (e : Expression) : e.CollapsesTo e.foldTree where
  literal_iff := by
    constructor
    · rintro ⟨line, value, h⟩
      exact (isCollapsible_of_foldTree h).1
    · exact IsCollapsible.exists_foldTree
  literal _ _ h := (isCollapsible_of_foldTree h).2
  stuck := by
    intro he hvalue
    rcases foldsAsEvaluated_of_isArithmetic he with ⟨v, -, hv, -⟩ | hzero
    · exact absurd hv (hvalue v)
    · exact hzero

end Expression

/-- For every description there is one tree that all sessions with folding build, and it is known
beforehand if this tree is a literal: if the description is one, or is arithmetic and has a value,
or compares two such descriptions.  The literal is the value of the description; a double is the
same to the last bit. -/
theorem folding_collapses (e : Expression) :
    ∃ built : Expression, e.FoldsTo built ∧ e.CollapsesTo built :=
  ⟨e.foldTree, e.foldsTo_foldTree, e.collapsesTo_foldTree⟩

/-- The description `-(7 % 0)` is arithmetic, but it has no value, and what is built is no literal
and still takes the remainder. -/
theorem folding_collapses_unless_stuck :
    ∃ e built : Expression, e.IsArithmetic ∧ e.FoldsTo built ∧ built.HasZeroDivision ∧
      ∀ line value, built ≠ .literal line value := by
  let rest : Expression := .binary 2 .mod (.literal 1 (.integer 7)) (.literal 1 (.integer 0))
  have hrest : rest.IsArithmetic := .binary 2 rfl (.literal 1 rfl) (.literal 1 rfl)
  have hvalue : ∀ v, (Expression.minus 3 rest).evaluate ≠ some (.ok v) := by
    intro v hv
    cases hv
  obtain ⟨built, hfolds, hcollapses⟩ := folding_collapses (.minus 3 rest)
  obtain ⟨-, hzero⟩ := hcollapses.stuck (.minus 3 hrest) hvalue
  exact ⟨_, built, .minus 3 hrest, hfolds, hzero, hzero.ne_literal⟩

example :
    (Expression.binary 2 .eq
      (.binary 1 .lt (.literal 1 (.integer 1)) (.literal 1 (.integer 2)))
      (.literal 1 (.boolean true))).foldTree =
    .binary 2 .eq (.literal 1 (.boolean true)) (.literal 1 (.boolean true)) := rfl

end ScriptTree
