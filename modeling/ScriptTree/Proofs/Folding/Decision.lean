import ScriptTree.Proofs.Folding.Tree

/-!
# When a node is folded

Before an operator is folded its operands are checked, and the evaluator then runs on what passed
the check.  The evaluator knows more failures than the one that folding expects, a division by zero;
any other one would mean that check and evaluator disagree.  They never do, and the check together
with the zero divisors decides exactly which nodes become literals.
-/

namespace ScriptTree

namespace Session

/-! ## Construction that stops at an unexpected failure -/

/-- Builds an operator on two operands.  A division by zero is left for the run time; any other
failure on operands that passed the check is handed on instead of a node. -/
def strictBinary (s : Session) (op : BinaryOperator) (left right : Expression) :
    Except EvalError Expression :=
  if s.options.constantFolding && !op.isLogical then
    match left.foldable?, right.foldable? with
    | some a, some b =>
      match op.eval a b with
      | .ok value => .ok (.literal s.line value)
      | .error .divisionByZero => .ok (.binary s.line op left right)
      | .error e => .error e
    | _, _ => .ok (.binary s.line op left right)
  else
    .ok (.binary s.line op left right)

/-- Builds a minus before an operand.  On a number literal no failure is expected at all. -/
def strictMinus (s : Session) (operand : Expression) : Except EvalError Expression :=
  if s.options.constantFolding then
    match operand.foldable? with
    | some a =>
      match a.negate with
      | .ok value => .ok (.literal s.line value)
      | .error e => .error e
    | none => .ok (.minus s.line operand)
  else
    .ok (.minus s.line operand)

section Strict

variable (s : Session)

/-- No operator meets an unexpected failure. -/
theorem strictBinary_eq_ok (op : BinaryOperator) (left right : Expression) :
    s.strictBinary op left right = .ok (s.binary op left right) := by
  cases hs : s.options.constantFolding with
  | false =>
      rw [strictBinary, hs, binary_of_not_folding hs]
      rfl
  | true =>
      rw [strictBinary, hs, binary_of_folding hs, Expression.reduceBinary, Bool.true_and]
      cases hop : op.isLogical with
      | true => cases left.foldable? <;> cases right.foldable? <;> rfl
      | false =>
          cases hleft : left.foldable? with
          | none => rfl
          | some a =>
              cases hright : right.foldable? with
              | none => rfl
              | some b =>
                  have ha := (Expression.foldable?_eq_some_iff.mp hleft).1
                  have hb := (Expression.foldable?_eq_some_iff.mp hright).1
                  cases heval : op.eval a b with
                  | ok value => simp [heval]
                  | error e =>
                      obtain ⟨rfl, -⟩ := (op.eval_eq_error_iff hop ha hb e).mp heval
                      simp [heval]

theorem strictMinus_eq_ok (operand : Expression) :
    s.strictMinus operand = .ok (s.minus operand) := by
  cases hs : s.options.constantFolding with
  | false =>
      rw [strictMinus, hs, minus_of_not_folding hs]
      rfl
  | true =>
      rw [strictMinus, hs, minus_of_folding hs, Expression.reduceMinus, if_pos rfl]
      cases hoperand : operand.foldable? with
      | none => rfl
      | some a =>
          obtain ⟨value, hvalue, -⟩ :=
            Value.exists_negate_of_isNumber (Expression.foldable?_eq_some_iff.mp hoperand).1
          simp [hvalue]

end Strict

/-! ## The nodes that are folded -/

/-- Folding is on, the operator is not logical, both operands are number literals, and no integer is
divided by the integer zero. -/
def FoldsBinary (s : Session) (op : BinaryOperator) (left right : Expression) : Prop :=
  s.options.constantFolding = true ∧ op.isLogical = false ∧
    ∃ l a r b, left = .literal l a ∧ right = .literal r b ∧ a.isNumber ∧ b.isNumber ∧
      ¬ DividesByZero op a b

/-- Folding is on and the operand is a number literal. -/
def FoldsMinus (s : Session) (operand : Expression) : Prop :=
  s.options.constantFolding = true ∧ ∃ l a, operand = .literal l a ∧ a.isNumber

/-- An operator is built as its result if it folds, and as a node of its own if it does not.  In
both cases it carries the current line, and a node has the operands as they were given. -/
structure DecidesBinary (s : Session) (op : BinaryOperator) (left right : Expression) : Prop where
  strict : s.strictBinary op left right = .ok (s.binary op left right)
  literal_iff : (∃ line value, s.binary op left right = .literal line value) ↔
    s.FoldsBinary op left right
  folded : s.FoldsBinary op left right → ∃ l a r b value, left = .literal l a ∧
    right = .literal r b ∧ op.eval a b = .ok value ∧
      s.binary op left right = .literal s.line value
  kept : ¬ s.FoldsBinary op left right →
    s.binary op left right = .binary s.line op left right

/-- The same for a minus before an operand. -/
structure DecidesMinus (s : Session) (operand : Expression) : Prop where
  strict : s.strictMinus operand = .ok (s.minus operand)
  literal_iff : (∃ line value, s.minus operand = .literal line value) ↔ s.FoldsMinus operand
  folded : s.FoldsMinus operand → ∃ l a value, operand = .literal l a ∧
    a.negate = .ok value ∧ s.minus operand = .literal s.line value
  kept : ¬ s.FoldsMinus operand → s.minus operand = .minus s.line operand

section Decision

variable {s : Session}

theorem FoldsBinary.binary_eq {op : BinaryOperator} {left right : Expression}
    (h : s.FoldsBinary op left right) :
    ∃ l a r b value, left = .literal l a ∧ right = .literal r b ∧ op.eval a b = .ok value ∧
      s.binary op left right = .literal s.line value := by
  obtain ⟨hs, hop, l, a, r, b, rfl, rfl, ha, hb, hzero⟩ := h
  obtain ⟨value, hvalue⟩ := (op.exists_eval_iff hop ha hb).mpr hzero
  have hleft := Expression.foldable?_eq_some_iff.mpr ⟨ha, l, rfl⟩
  have hright := Expression.foldable?_eq_some_iff.mpr ⟨hb, r, rfl⟩
  refine ⟨l, a, r, b, value, rfl, rfl, hvalue, ?_⟩
  rw [binary_of_folding hs]
  exact Expression.reduceBinary_of_eval hop hleft hright hvalue s.line

theorem binary_of_not_foldsBinary {op : BinaryOperator} {left right : Expression}
    (h : ¬ s.FoldsBinary op left right) :
    s.binary op left right = .binary s.line op left right := by
  cases hs : s.options.constantFolding with
  | false => exact binary_of_not_folding hs op left right
  | true =>
      rw [binary_of_folding hs]
      rcases Expression.reduceBinary_cases s.line op left right with
        ⟨a, b, value, ha, hb, hop, hvalue, -⟩ | ⟨-, hkept⟩
      · exfalso
        obtain ⟨ha', l, hleft⟩ := Expression.foldable?_eq_some_iff.mp ha
        obtain ⟨hb', r, hright⟩ := Expression.foldable?_eq_some_iff.mp hb
        have hzero := (op.exists_eval_iff hop ha' hb').mp ⟨value, hvalue⟩
        exact h ⟨hs, hop, l, a, r, b, hleft, hright, ha', hb', hzero⟩
      · exact hkept

theorem FoldsMinus.minus_eq {operand : Expression} (h : s.FoldsMinus operand) :
    ∃ l a value, operand = .literal l a ∧ a.negate = .ok value ∧
      s.minus operand = .literal s.line value := by
  obtain ⟨hs, l, a, rfl, ha⟩ := h
  obtain ⟨value, hvalue, -⟩ := Value.exists_negate_of_isNumber ha
  have hoperand := Expression.foldable?_eq_some_iff.mpr ⟨ha, l, rfl⟩
  refine ⟨l, a, value, rfl, hvalue, ?_⟩
  rw [minus_of_folding hs]
  exact Expression.reduceMinus_of_negate hoperand hvalue s.line

theorem minus_of_not_foldsMinus {operand : Expression} (h : ¬ s.FoldsMinus operand) :
    s.minus operand = .minus s.line operand := by
  cases hs : s.options.constantFolding with
  | false => exact minus_of_not_folding hs operand
  | true =>
      rw [minus_of_folding hs]
      rcases Expression.reduceMinus_cases s.line operand with ⟨a, value, ha, -, -⟩ | ⟨-, hkept⟩
      · exfalso
        obtain ⟨ha', l, hoperand⟩ := Expression.foldable?_eq_some_iff.mp ha
        exact h ⟨hs, l, a, hoperand, ha'⟩
      · exact hkept

variable (s)

theorem decidesBinary (op : BinaryOperator) (left right : Expression) :
    s.DecidesBinary op left right where
  strict := s.strictBinary_eq_ok op left right
  literal_iff := by
    constructor
    · rintro ⟨line, value, hliteral⟩
      apply Classical.byContradiction
      intro h
      rw [binary_of_not_foldsBinary h] at hliteral
      cases hliteral
    · intro h
      obtain ⟨-, -, -, -, value, -, -, -, hliteral⟩ := h.binary_eq
      exact ⟨s.line, value, hliteral⟩
  folded := FoldsBinary.binary_eq
  kept := binary_of_not_foldsBinary

theorem decidesMinus (operand : Expression) : s.DecidesMinus operand where
  strict := s.strictMinus_eq_ok operand
  literal_iff := by
    constructor
    · rintro ⟨line, value, hliteral⟩
      apply Classical.byContradiction
      intro h
      rw [minus_of_not_foldsMinus h] at hliteral
      cases hliteral
    · intro h
      obtain ⟨-, -, value, -, -, hliteral⟩ := h.minus_eq
      exact ⟨s.line, value, hliteral⟩
  folded := FoldsMinus.minus_eq
  kept := minus_of_not_foldsMinus

/-- A double divisor is folded whatever it is, and so with a zero of either sign. -/
theorem foldsBinary_of_double_divisor (hs : s.options.constantFolding = true)
    {op : BinaryOperator} (hop : op = .div ∨ op = .mod) (l r : Line) {a : Value}
    (ha : a.isNumber) (z : Float) :
    s.FoldsBinary op (.literal l a) (.literal r (.double z)) := by
  have hlogical : op.isLogical = false := by
    rcases hop with rfl | rfl <;> rfl
  have hzero : ¬ DividesByZero op a (.double z) := by
    rintro ⟨-, -, hdivisor⟩
    cases hdivisor
  exact ⟨hs, hlogical, l, a, r, .double z, rfl, rfl, ha, rfl, hzero⟩

/-- An integer over the integer zero is not. -/
theorem not_foldsBinary_of_zero_divisor {op : BinaryOperator} (hop : op = .div ∨ op = .mod)
    (l r : Line) (m : Int64) :
    ¬ s.FoldsBinary op (.literal l (.integer m)) (.literal r (.integer 0)) := by
  rintro ⟨-, -, l', a, r', b, hleft, hright, -, -, hzero⟩
  cases hleft
  cases hright
  exact hzero ⟨hop, rfl, rfl⟩

end Decision

end Session

/-- Building an operator or a minus never meets an unexpected failure, and what is built follows
from the options, the operator and the two operands alone.  Among the divisors that are zero, a
double of either sign is folded away, and an integer stays under an integer. -/
theorem folding_decision (s : Session) :
    (∀ op left right, s.DecidesBinary op left right) ∧
    (∀ operand, s.DecidesMinus operand) ∧
    ∀ op, op = .div ∨ op = .mod → ∀ l r : Line,
      (s.options.constantFolding = true → ∀ (a : Value) (z : Float), a.isNumber →
        ∃ value, s.binary op (.literal l a) (.literal r (.double z)) = .literal s.line value) ∧
      ∀ m : Int64, s.binary op (.literal l (.integer m)) (.literal r (.integer 0)) =
        .binary s.line op (.literal l (.integer m)) (.literal r (.integer 0)) := by
  refine ⟨s.decidesBinary, s.decidesMinus, ?_⟩
  intro op hop l r
  constructor
  · intro hs a z ha
    have hfolds := s.foldsBinary_of_double_divisor hs hop l r ha z
    obtain ⟨-, -, -, -, value, -, -, -, hliteral⟩ := hfolds.binary_eq
    exact ⟨value, hliteral⟩
  · intro m
    exact Session.binary_of_not_foldsBinary (s.not_foldsBinary_of_zero_divisor hop l r m)

/-- At line 8 of a session that folds: the least integer over minus one is folded although it
overflows, one over the double `-0.0` is folded, and one over the integer zero is left. -/
theorem folding_decision_at_zero :
    ∃ s : Session, s.options.constantFolding = true ∧ s.line = 8 ∧
      s.binary .div (.literal 1 (.integer Int64.minValue)) (.literal 2 (.integer (-1))) =
        .literal 8 (.integer Int64.minValue) ∧
      (∃ value, s.binary .div (.literal 1 (.double 1.0)) (.literal 2 (.double (-0.0))) =
        .literal 8 value) ∧
      s.binary .div (.literal 1 (.integer 1)) (.literal 2 (.integer 0)) =
        .binary 8 .div (.literal 1 (.integer 1)) (.literal 2 (.integer 0)) := by
  obtain ⟨hbinary, -, hdivisors⟩ := folding_decision (.start ⟨true, 8⟩)
  obtain ⟨hdouble, hinteger⟩ := hdivisors .div (Or.inl rfl) 1 2
  have hfolds : Session.FoldsBinary (.start ⟨true, 8⟩) .div
      (.literal 1 (.integer Int64.minValue)) (.literal 2 (.integer (-1))) := by
    have hzero : ¬ DividesByZero .div (.integer Int64.minValue) (.integer (-1)) := by
      rintro ⟨-, -, hdivisor⟩
      simp at hdivisor
    exact ⟨rfl, rfl, 1, _, 2, _, rfl, rfl, rfl, rfl, hzero⟩
  obtain ⟨l, a, r, b, value, hleft, hright, hvalue, hquotient⟩ := (hbinary _ _ _).folded hfolds
  cases hleft
  cases hright
  have hleast : BinaryOperator.div.eval (.integer Int64.minValue) (.integer (-1)) =
      .ok (.integer Int64.minValue) := rfl
  rw [hleast] at hvalue
  cases hvalue
  exact ⟨_, rfl, rfl, hquotient, hdouble rfl (.double 1.0) (-0.0) rfl, hinteger 1⟩

end ScriptTree
