import ScriptTree.Evaluation
import ScriptTree.Proofs.Syntax.Expression

/-!
# Evaluation of trees

A tree of literals, minuses and operators has an outcome of its own.  Operands are evaluated from
left to right, an operator is applied once both of them have a result, and the first failure ends
the evaluation.  What the results are is left open here: values and kinds of values are evaluated by
the same walk.
-/

namespace ScriptTree

namespace Expression

/-- A tree of certain literals and certain operators, with minuses anywhere. -/
inductive ConsistsOf (literals : Value → Prop) (operators : BinaryOperator → Prop) :
    Expression → Prop where
  | literal (line : Line) {value : Value} : literals value →
      ConsistsOf literals operators (.literal line value)
  | minus (line : Line) {operand : Expression} : ConsistsOf literals operators operand →
      ConsistsOf literals operators (.minus line operand)
  | binary (line : Line) {op : BinaryOperator} {left right : Expression} : operators op →
      ConsistsOf literals operators left → ConsistsOf literals operators right →
      ConsistsOf literals operators (.binary line op left right)

/-- A tree without identifiers, assignments and calls. -/
def IsConstant : Expression → Prop :=
  ConsistsOf (fun _ => True) (fun _ => True)

end Expression

/-- What trees are evaluated in: the results of literals, and the effect of a minus and of the
operators on results. -/
structure Domain (α : Type) where
  literal : Value → α
  negate : α → Except EvalError α
  apply : BinaryOperator → α → α → Except EvalError α

namespace Domain

variable {α : Type} (D : Domain α)

/-- Other nodes than literals, minuses and operators have no outcome. -/
def evaluation : Expression.Interpretation (Option (Except EvalError α)) where
  literal _ value := some (.ok (D.literal value))
  identifier _ _ := none
  assign _ _ _ := none
  binary _ op left right := do
    let left ← left
    let right ← right
    return do
      let a ← left
      let b ← right
      D.apply op a b
  minus _ operand := do
    let operand ← operand
    return do
      let a ← operand
      D.negate a
  call _ _ _ := none

/-- The outcome of a tree: its result, or the error of the first node that fails. -/
def evaluate : Expression → Option (Except EvalError α) :=
  Expression.interpret D.evaluation

variable {D}

theorem evaluate_minus {operand : Expression} {x : Except EvalError α}
    (h : D.evaluate operand = some x) (line : Line) :
    D.evaluate (.minus line operand) = some (x >>= D.negate) := by
  change (D.evaluate operand >>= fun x => some (x >>= D.negate)) = _
  rw [h]
  rfl

theorem evaluate_binary {left right : Expression} {x y : Except EvalError α}
    (hleft : D.evaluate left = some x) (hright : D.evaluate right = some y) (line : Line)
    (op : BinaryOperator) :
    D.evaluate (.binary line op left right) =
      some (x >>= fun a => y >>= fun b => D.apply op a b) := by
  change (D.evaluate left >>= fun x => D.evaluate right >>= fun y =>
    some (x >>= fun a => y >>= fun b => D.apply op a b)) = _
  rw [hleft, hright]
  rfl

variable (D)

theorem exists_evaluate {e : Expression} (h : e.IsConstant) :
    ∃ outcome, D.evaluate e = some outcome := by
  induction h with
  | literal line _ => exact ⟨_, rfl⟩
  | minus line _ ih =>
      obtain ⟨x, hx⟩ := ih
      exact ⟨_, evaluate_minus hx line⟩
  | binary line _ _ _ ihleft ihright =>
      obtain ⟨x, hx⟩ := ihleft
      obtain ⟨y, hy⟩ := ihright
      exact ⟨_, evaluate_binary hx hy line _⟩

/-! ## The node that fails -/

/-- The error of an outcome. -/
def errorOf? : Except EvalError α → Option EvalError
  | .ok _ => none
  | .error err => some err

theorem errorOf?_eq_some_iff {outcome : Except EvalError α} {err : EvalError} :
    errorOf? outcome = some err ↔ outcome = .error err := by
  cases outcome <;> simp [errorOf?]

/-- The error of a node that fails although its operands have results. -/
def fault? : Expression → Option EvalError
  | .minus _ operand =>
    match D.evaluate operand with
    | some (.ok a) => errorOf? (D.negate a)
    | _ => none
  | .binary _ op left right =>
    match D.evaluate left, D.evaluate right with
    | some (.ok a), some (.ok b) => errorOf? (D.apply op a b)
    | _, _ => none
  | _ => none

/-- An evaluation fails exactly if a node does, and then with the error of the leftmost one.  No
such node stands below another one, so "leftmost" leaves nothing open. -/
theorem findSome?_fault? {e : Expression} (he : e.IsConstant) {outcome : Except EvalError α}
    (h : D.evaluate e = some outcome) : e.nodes.findSome? D.fault? = errorOf? outcome := by
  induction he generalizing outcome with
  | literal line _ =>
      cases h
      rfl
  | @minus line operand hoperand ih =>
      obtain ⟨x, hx⟩ := D.exists_evaluate hoperand
      rw [evaluate_minus hx, Option.some.injEq] at h
      subst h
      rw [Expression.nodes, List.findSome?_cons, fault?, hx, ih hx]
      cases x with
      | error err => rfl
      | ok a =>
          change _ = errorOf? (D.negate a)
          cases hneg : D.negate a <;> simp [errorOf?, hneg]
  | @binary line op left right _ hleft hright ihleft ihright =>
      obtain ⟨x, hx⟩ := D.exists_evaluate hleft
      obtain ⟨y, hy⟩ := D.exists_evaluate hright
      rw [evaluate_binary hx hy, Option.some.injEq] at h
      subst h
      rw [Expression.nodes, List.cons_append, List.findSome?_cons, List.findSome?_append, fault?,
        hx, hy, ihleft hx, ihright hy]
      cases x with
      | error err => rfl
      | ok a =>
          cases y with
          | error err => rfl
          | ok b =>
              change _ = errorOf? (D.apply op a b)
              cases happly : D.apply op a b <;> simp [errorOf?, happly]

end Domain

end ScriptTree
