import ScriptTree.Proofs.Construction.Translation
import ScriptTree.Proofs.Evaluation
import ScriptTree.Proofs.Syntax.Embedded

/-!
# Folding of finished trees

Folding can be done after the fact: rewrite the children first, and then put a literal in place of
the node itself if the node is a minus or an operator on number literals that has a result.  The
literal keeps the line of the node.  A session that folds while it builds makes exactly the trees
that this pass makes out of those of a session that does not fold.
-/

namespace ScriptTree

namespace Expression

/-! ## One node -/

/-- A minus before an operand, or the opposite of a number literal. -/
def reduceMinus (line : Line) (operand : Expression) : Expression :=
  match operand.foldable?.map Value.negate with
  | some (.ok value) => .literal line value
  | _ => .minus line operand

/-- An operator on two operands, or its result if both are number literals, the operator is not
logical, and there is a result. -/
def reduceBinary (line : Line) (op : BinaryOperator) (left right : Expression) :
    Expression :=
  match left.foldable?, right.foldable? with
  | some a, some b =>
    match op.isLogical, op.eval a b with
    | false, .ok value => .literal line value
    | _, _ => .binary line op left right
  | _, _ => .binary line op left right

/-- The number in a literal is what a literal folds to. -/
theorem foldable?_eq_some_iff {e : Expression} {a : Value} :
    e.foldable? = some a ↔ a.isNumber ∧ ∃ line, e = .literal line a := by
  constructor
  · intro h
    cases e with
    | literal line v => cases v <;> cases h <;> exact ⟨rfl, line, rfl⟩
    | _ => cases h
  · rintro ⟨ha, line, rfl⟩
    cases a <;> first | rfl | cases ha

theorem reduceMinus_of_negate {operand : Expression} {a value : Value}
    (hoperand : operand.foldable? = some a) (hvalue : a.negate = .ok value) (line : Line) :
    reduceMinus line operand = .literal line value := by
  rw [reduceMinus, hoperand, Option.map_some, hvalue]

theorem reduceBinary_of_eval {op : BinaryOperator} {left right : Expression} {a b value : Value}
    (hop : op.isLogical = false) (hleft : left.foldable? = some a)
    (hright : right.foldable? = some b) (hvalue : op.eval a b = .ok value) (line : Line) :
    reduceBinary line op left right = .literal line value := by
  rw [reduceBinary, hleft, hright]
  simp only [hop, hvalue]

/-- A minus is kept only before what is no number. -/
theorem reduceMinus_cases (line : Line) (operand : Expression) :
    (∃ a value, operand.foldable? = some a ∧ a.negate = .ok value ∧
        reduceMinus line operand = .literal line value) ∨
      (operand.foldable? = none ∧ reduceMinus line operand = .minus line operand) := by
  cases hoperand : operand.foldable? with
  | none =>
      right
      rw [reduceMinus, hoperand]
      exact ⟨rfl, rfl⟩
  | some a =>
      obtain ⟨value, hvalue, -⟩ :=
        Value.exists_negate_of_isNumber (foldable?_eq_some_iff.mp hoperand).1
      exact Or.inl ⟨a, value, rfl, hvalue, reduceMinus_of_negate hoperand hvalue line⟩

/-- An operator on two numbers is kept only if it is logical or divides by zero. -/
theorem reduceBinary_cases (line : Line) (op : BinaryOperator) (left right : Expression) :
    (∃ a b value, left.foldable? = some a ∧ right.foldable? = some b ∧
        op.isLogical = false ∧ op.eval a b = .ok value ∧
        reduceBinary line op left right = .literal line value) ∨
      ((∀ a b, left.foldable? = some a → right.foldable? = some b →
          op.isLogical = true ∨ DividesByZero op a b) ∧
        reduceBinary line op left right = .binary line op left right) := by
  rw [reduceBinary]
  cases hleft : left.foldable? with
  | none => exact Or.inr ⟨fun _ _ ha => (nomatch ha), rfl⟩
  | some a =>
      cases hright : right.foldable? with
      | none => exact Or.inr ⟨fun _ _ _ hb => (nomatch hb), rfl⟩
      | some b =>
          cases hop : op.isLogical with
          | true => exact Or.inr ⟨fun _ _ _ _ => Or.inl rfl, rfl⟩
          | false =>
              cases heval : op.eval a b with
              | ok value => exact Or.inl ⟨a, b, value, rfl, rfl, rfl, heval, by simp only [heval]⟩
              | error e =>
                  have ha := (foldable?_eq_some_iff.mp hleft).1
                  have hb := (foldable?_eq_some_iff.mp hright).1
                  have hzero := ((op.eval_eq_error_iff hop ha hb e).mp heval).2
                  refine Or.inr ⟨fun a' b' ha' hb' => Or.inr ?_, by simp only [heval]⟩
                  cases ha'
                  cases hb'
                  exact hzero

/-! ## Whole trees -/

/-- Every node is rebuilt from its folded children and then reduced. -/
def foldInterpretation : Interpretation Expression where
  literal := .literal
  identifier := .identifier
  assign := .assign
  binary := reduceBinary
  minus := reduceMinus
  call := .call

/-- The tree with every operator on number literals replaced, from the leaves up. -/
def foldTree : Expression → Expression :=
  interpret foldInterpretation

theorem foldTree_call (line : Line) (name : String) (arguments : Option (Chain Expression)) :
    (call line name arguments).foldTree =
      .call line name (arguments.map (Chain.map foldTree)) :=
  interpret_call foldInterpretation line name arguments

end Expression

/-! ## Sessions that fold -/

namespace Session

variable {s : Session}

theorem minus_of_folding (hs : s.options.constantFolding = true) (operand : Expression) :
    s.minus operand = .reduceMinus s.line operand := by
  rw [minus, hs, if_pos rfl, foldMinus?, Expression.reduceMinus]
  cases operand.foldable? with
  | none => rfl
  | some a => cases hvalue : a.negate <;> simp [hvalue, Except.toOption]

theorem binary_of_folding (hs : s.options.constantFolding = true) (op : BinaryOperator)
    (left right : Expression) :
    s.binary op left right = .reduceBinary s.line op left right := by
  rw [binary, hs, if_pos rfl, fold?, Expression.reduceBinary]
  cases left.foldable? with
  | none => simp
  | some a =>
      cases right.foldable? with
      | none => simp
      | some b =>
          cases op.isLogical with
          | true => rfl
          | false => cases heval : op.eval a b <;> simp [heval, Except.toOption]

theorem minus_of_not_folding (hs : s.options.constantFolding = false)
    (operand : Expression) : s.minus operand = .minus s.line operand := by
  rw [minus, hs]
  rfl

theorem binary_of_not_folding (hs : s.options.constantFolding = false)
    (op : BinaryOperator) (left right : Expression) :
    s.binary op left right = .binary s.line op left right := by
  rw [binary, hs]
  rfl

end Session

def Translation.folding : Translation :=
  .ofExpressions Expression.foldTree

def Options.folding (options : Options) : Options :=
  { options with constantFolding := true }

/-- What a folding session builds from folded parts is what folding makes of the tree that a session
without folding builds at the same line. -/
theorem Translation.folding_commutes {s s' : Session}
    (hs : s.options.constantFolding = false) (hs' : s'.options.constantFolding = true)
    (hline : s'.line = s.line) : Translation.folding.Commutes s s' := by
  obtain ⟨options, line, functions, diagnostics⟩ := s
  obtain ⟨options', line', functions', diagnostics'⟩ := s'
  obtain rfl : line' = line := hline
  constructor
  case binary =>
    intro op left right
    rw [Session.binary_of_folding hs', Session.binary_of_not_folding hs]
    rfl
  case minus =>
    intro operand
    rw [Session.minus_of_folding hs', Session.minus_of_not_folding hs]
    rfl
  case call =>
    intro name arguments
    exact (Expression.foldTree_call line' name arguments).symm
  case ifElse =>
    intro condition thenBlock elsifs elseBlock
    exact (Statement.mapExpressions_ifElse Expression.foldTree line' condition thenBlock
      elsifs elseBlock).symm
  case block =>
    intro statements
    exact (Block.mapExpressions_mk Expression.foldTree statements).symm
  -- Everywhere else folding goes on inside and the session only stamps the node.
  all_goals intros; rfl

/-- A session that does not fold goes with the same session with folding. -/
theorem Translation.folding_commutes_session {s : Session}
    (hs : s.options.constantFolding = false) :
    Translation.folding.Commutes s (Translation.folding.session Options.folding s) :=
  folding_commutes hs rfl rfl

end ScriptTree
