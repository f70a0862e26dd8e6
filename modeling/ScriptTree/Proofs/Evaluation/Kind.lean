import ScriptTree.Proofs.Evaluation
import ScriptTree.Proofs.Evaluation.Tree

/-!
# Kinds

Which kind of value an operator gives, and the error it gives instead, depend on the kinds of its
operands alone; only the division of an integer by zero depends on the operands themselves.  So the
kinds of the literals in a tree decide the kind of its value, and the error of its evaluation unless
a division by zero comes first.
-/

namespace ScriptTree

namespace BinaryOperator

def isArithmetic : BinaryOperator → Bool
  | .add | .sub | .mul | .div | .mod => true
  | _ => false

/-- The operators that tell equal from different. -/
def isEquality : BinaryOperator → Bool
  | .eq | .ne => true
  | _ => false

def isComparison : BinaryOperator → Bool
  | .eq | .ne | .gt | .ge | .lt | .le => true
  | _ => false

theorem isLogical_eq_false_iff {op : BinaryOperator} :
    op.isLogical = false ↔ op.isArithmetic ∨ op.isComparison := by
  cases op <;> decide

end BinaryOperator

/-! ## The rules -/

namespace Value.Kind

def isNumeric : Kind → Bool
  | .integer | .double => true
  | .boolean | .null => false

/-- The kind in which two numbers are combined. -/
def common (left right : Kind) : Kind :=
  if left = .integer ∧ right = .integer then .integer else .double

/-- The rule for a minus. -/
def negate (operand : Kind) : Except EvalError Kind :=
  if operand.isNumeric then .ok operand else .error (.unsupportedOperand "-" operand)

/-- The rules for operators.  Numbers can be combined and compared, booleans can be combined and
told apart, and null can be told apart from everything. -/
def apply (op : BinaryOperator) (left right : Kind) : Except EvalError Kind :=
  if left.isNumeric ∧ right.isNumeric then
    if op.isArithmetic then .ok (left.common right)
    else if op.isComparison then .ok .boolean
    else .error (.notBoolean op.symbol (left.common right))
  else if left = .boolean ∧ right = .boolean then
    if op.isLogical ∨ op.isEquality then .ok .boolean
    else .error (.unsupportedOperand op.symbol .boolean)
  else if (left = .null ∨ right = .null) ∧ op.isEquality then .ok .boolean
  else .error (.unsupportedOperands op.symbol left right)

end Value.Kind

/-! ## One operator -/

theorem Value.map_kind_negate (a : Value) : a.negate.map Value.kind = a.kind.negate := by
  cases a <;> rfl

theorem Value.isNumber_eq (a : Value) : a.isNumber = a.kind.isNumeric := by
  cases a <;> rfl

theorem Value.Kind.isNumeric_common (left right : Kind) : (left.common right).isNumeric := by
  rw [common]
  split <;> rfl

/-- A double on either side makes the pair double. -/
theorem Value.Kind.apply_eq_of_common {left right : Kind} (hleft : left.isNumeric)
    (hright : right.isNumeric) (h : left.common right = .double) (op : BinaryOperator) :
    apply op left right = apply op .double .double := by
  have hnumbers : left.isNumeric ∧ right.isNumeric := ⟨hleft, hright⟩
  rw [apply, if_pos hnumbers, h]
  rfl

theorem Value.Kind.apply_ne_null (op : BinaryOperator) (left right : Kind) :
    apply op left right ≠ .ok .null := by
  rw [apply]
  grind [common]

namespace BinaryOperator

theorem map_kind_evalIntegers {op : BinaryOperator} {m n : Int64}
    (h : ¬ DividesByZero op (.integer m) (.integer n)) :
    (op.evalIntegers m n).map Value.kind = Value.Kind.apply op .integer .integer := by
  cases op
  case div =>
    have hn : n ≠ 0 := fun hn => h ⟨Or.inl rfl, rfl, congrArg Value.integer hn⟩
    rw [evalIntegers, if_neg hn]
    rfl
  case mod =>
    have hn : n ≠ 0 := fun hn => h ⟨Or.inr rfl, rfl, congrArg Value.integer hn⟩
    rw [evalIntegers, if_neg hn]
    rfl
  -- The other operators do not look at their operands before they give a result.
  all_goals rfl

theorem map_kind_evalDoubles (op : BinaryOperator) (x y : Float) :
    (op.evalDoubles x y).map Value.kind = Value.Kind.apply op .double .double := by
  cases op <;> rfl

theorem map_kind_evalBooleans (op : BinaryOperator) (a b : Bool) :
    (op.evalBooleans a b).map Value.kind = Value.Kind.apply op .boolean .boolean := by
  cases op <;> rfl

theorem map_kind_evalNull (op : BinaryOperator) {a b : Value} (h : a = .null ∨ b = .null) :
    (op.evalNull a b).map Value.kind = Value.Kind.apply op a.kind b.kind := by
  rcases h with rfl | rfl
  · cases op <;> cases b <;> rfl
  · cases op <;> cases a <;> rfl

/-- Unless an integer is divided by zero, the kinds of the operands decide between a value and an
error, tell the kind of the value, and tell which error it is. -/
theorem map_kind_eval {op : BinaryOperator} {a b : Value} (h : ¬ DividesByZero op a b) :
    (op.eval a b).map Value.kind = Value.Kind.apply op a.kind b.kind := by
  cases a with
  | integer m =>
      cases b with
      | integer n => exact map_kind_evalIntegers h
      | double y =>
          change (op.evalDoubles (Double.ofInteger m) y).map Value.kind = _
          rw [map_kind_evalDoubles]
          exact (Value.Kind.apply_eq_of_common rfl rfl rfl op).symm
      | boolean b => cases op <;> rfl
      | null => exact map_kind_evalNull op (Or.inr rfl)
  | double x =>
      cases b with
      | integer n =>
          change (op.evalDoubles x (Double.ofInteger n)).map Value.kind = _
          rw [map_kind_evalDoubles]
          exact (Value.Kind.apply_eq_of_common rfl rfl rfl op).symm
      | double y => exact map_kind_evalDoubles op x y
      | boolean b => cases op <;> rfl
      | null => exact map_kind_evalNull op (Or.inr rfl)
  | boolean a =>
      cases b with
      | integer n => cases op <;> rfl
      | double y => cases op <;> rfl
      | boolean b => exact map_kind_evalBooleans op a b
      | null => exact map_kind_evalNull op (Or.inr rfl)
  | null => exact map_kind_evalNull op (Or.inl rfl)

theorem eval_of_dividesByZero {op : BinaryOperator} {a b : Value} (h : DividesByZero op a b) :
    op.eval a b = .error .divisionByZero := by
  obtain ⟨hop, ha, rfl⟩ := h
  cases a <;> cases ha
  rcases hop with rfl | rfl <;> rfl

/-- An operator fails by the rules for kinds, or because an integer is divided by zero. -/
theorem eval_eq_error_iff_kind {op : BinaryOperator} {a b : Value} {err : EvalError} :
    op.eval a b = .error err ↔
      Value.Kind.apply op a.kind b.kind = .error err ∨
        (err = .divisionByZero ∧ DividesByZero op a b) := by
  by_cases hzero : DividesByZero op a b
  · have hkinds : Value.Kind.apply op a.kind b.kind = .ok .integer := by
      obtain ⟨hop, ha, rfl⟩ := hzero
      rw [ha]
      rcases hop with rfl | rfl <;> rfl
    rw [eval_of_dividesByZero hzero, hkinds]
    simp [hzero, eq_comm]
  · have hkinds := map_kind_eval hzero
    rw [← hkinds]
    cases op.eval a b <;> simp [Except.map, hzero]

/-- The kind of a result is that of the rules. -/
theorem apply_kind_of_eval {op : BinaryOperator} {a b v : Value} (hv : op.eval a b = .ok v) :
    Value.Kind.apply op a.kind b.kind = .ok v.kind := by
  have hzero : ¬ DividesByZero op a b := by
    intro hzero
    rw [eval_of_dividesByZero hzero] at hv
    cases hv
  rw [← map_kind_eval hzero, hv]
  rfl

/-- Among the results that two numbers have, those of the arithmetic operators are numbers. -/
theorem isNumber_eval_iff {op : BinaryOperator} {a b v : Value} (ha : a.isNumber)
    (hb : b.isNumber) (hv : op.eval a b = .ok v) : v.isNumber ↔ op.isArithmetic := by
  have hkind := apply_kind_of_eval hv
  rw [Value.isNumber_eq] at ha hb ⊢
  rw [Value.Kind.apply, if_pos ⟨ha, hb⟩] at hkind
  by_cases hop : op.isArithmetic
  · rw [if_pos hop] at hkind
    rw [← Except.ok.inj hkind]
    exact iff_of_true (Value.Kind.isNumeric_common _ _) hop
  · rw [if_neg hop] at hkind
    split at hkind
    · rw [← Except.ok.inj hkind]
      exact iff_of_false Bool.false_ne_true hop
    · cases hkind

/-- No operator gives a null. -/
theorem ne_null_of_eval {op : BinaryOperator} {a b v : Value} (hv : op.eval a b = .ok v) :
    v ≠ .null := by
  rintro rfl
  exact Value.Kind.apply_ne_null op a.kind b.kind (apply_kind_of_eval hv)

end BinaryOperator

/-! ## Trees -/

namespace Domain

/-- Evaluation proper. -/
def values : Domain Value where
  literal := id
  negate := Value.negate
  apply := BinaryOperator.eval

/-- Evaluation that knows nothing of a value but its kind. -/
def kinds : Domain Value.Kind where
  literal := Value.kind
  negate := Value.Kind.negate
  apply := Value.Kind.apply

end Domain

namespace Expression

/-- The value of a tree of literals, minuses and operators, or why there is none. -/
def evaluate (e : Expression) : Option Evaluated :=
  Domain.values.evaluate e

theorem evaluate_minus_of_ok {operand : Expression} {a : Value}
    (h : operand.evaluate = some (.ok a)) (line : Line) :
    (minus line operand).evaluate = some a.negate :=
  Domain.evaluate_minus h line

theorem evaluate_binary_of_ok {left right : Expression} {a b : Value}
    (hleft : left.evaluate = some (.ok a)) (hright : right.evaluate = some (.ok b)) (line : Line)
    (op : BinaryOperator) : (binary line op left right).evaluate = some (op.eval a b) :=
  Domain.evaluate_binary hleft hright line op

/-- The kind that the rules give to such a tree, or the first error in it by the rules. -/
def kind? (e : Expression) : Option (Except EvalError Value.Kind) :=
  Domain.kinds.evaluate e

/-- A node whose operands have values and which fails itself: the rules have an error for the kinds
of these values, or an integer is divided by zero. -/
inductive FailsWith : Expression → EvalError → Prop where
  | minus (line : Line) {operand : Expression} {a : Value} {err : EvalError} :
      operand.evaluate = some (.ok a) → a.kind.negate = .error err →
      FailsWith (.minus line operand) err
  | binary (line : Line) {op : BinaryOperator} {left right : Expression} {a b : Value}
      {err : EvalError} :
      left.evaluate = some (.ok a) → right.evaluate = some (.ok b) →
      Value.Kind.apply op a.kind b.kind = .error err →
      FailsWith (.binary line op left right) err
  | division (line : Line) {op : BinaryOperator} {left right : Expression} {a b : Value} :
      left.evaluate = some (.ok a) → right.evaluate = some (.ok b) → DividesByZero op a b →
      FailsWith (.binary line op left right) .divisionByZero

/-- What evaluation has to do with kinds. -/
structure RespectsKinds (e : Expression) : Prop where
  total : ∃ outcome, e.evaluate = some outcome
  value : ∀ v, e.evaluate = some (.ok v) → e.kind? = some (.ok v.kind)
  error : ∀ err, e.evaluate = some (.error err) → err ≠ .divisionByZero →
    e.kind? = some (.error err)
  of_kind : ∀ kind, e.kind? = some (.ok kind) →
    (∃ v, e.evaluate = some (.ok v) ∧ v.kind = kind) ∨
      e.evaluate = some (.error .divisionByZero)
  of_kindError : ∀ err, e.kind? = some (.error err) →
    e.evaluate = some (.error err) ∨ e.evaluate = some (.error .divisionByZero)
  /-- The error of an evaluation, a division by zero included, is that of the leftmost node that
  fails. -/
  leftmost : ∀ err, e.evaluate = some (.error err) ↔
    ∃ before n after, e.nodes = before ++ n :: after ∧ n.FailsWith err ∧
      ∀ m ∈ before, ∀ err', ¬ m.FailsWith err'

/-- The kind of the outcome of a tree is its outcome in kinds, up to a division by zero. -/
theorem kind?_eq_of_evaluate {e : Expression} (he : e.IsConstant) {outcome : Evaluated}
    (h : e.evaluate = some outcome) :
    outcome = .error .divisionByZero ∨ e.kind? = some (outcome.map Value.kind) := by
  induction he generalizing outcome with
  | literal line _ =>
      cases h
      exact Or.inr rfl
  | @minus line operand hoperand ih =>
      obtain ⟨x, hx⟩ := Domain.values.exists_evaluate hoperand
      have hnode := Domain.evaluate_minus hx line
      obtain rfl : x >>= Value.negate = outcome := Option.some.inj (hnode.symm.trans h)
      rcases ih hx with rfl | hkind
      · exact Or.inl rfl
      · right
        have hkinds := Domain.evaluate_minus hkind line
        rw [kind?, hkinds]
        cases x with
        | error err => rfl
        | ok a => exact congrArg some a.map_kind_negate.symm
  | @binary line op left right _ hleft hright ihleft ihright =>
      obtain ⟨x, hx⟩ := Domain.values.exists_evaluate hleft
      obtain ⟨y, hy⟩ := Domain.values.exists_evaluate hright
      have hnode := Domain.evaluate_binary hx hy line op
      obtain rfl := Option.some.inj (hnode.symm.trans h)
      rcases ihleft hx with rfl | hkindx
      · exact Or.inl rfl
      cases x with
      | error err =>
          right
          obtain ⟨z, hz⟩ := Domain.kinds.exists_evaluate hright
          exact Domain.evaluate_binary hkindx hz line op
      | ok a =>
          rcases ihright hy with rfl | hkindy
          · exact Or.inl rfl
          have hkinds := Domain.evaluate_binary hkindx hkindy line op
          cases y with
          | error err => exact Or.inr hkinds
          | ok b =>
              by_cases hzero : DividesByZero op a b
              · exact Or.inl (BinaryOperator.eval_of_dividesByZero hzero)
              · right
                rw [kind?, hkinds]
                exact congrArg some (BinaryOperator.map_kind_eval hzero).symm

theorem fault?_eq_some_iff {n : Expression} {err : EvalError} :
    Domain.values.fault? n = some err ↔ n.FailsWith err := by
  constructor
  · intro h
    cases n with
    | minus line operand =>
        rw [Domain.fault?] at h
        split at h
        · next a ha =>
            have hnegate : a.negate = .error err := Domain.errorOf?_eq_some_iff.mp h
            refine .minus line ha ?_
            rw [← a.map_kind_negate, hnegate]
            rfl
        · cases h
    | binary line op left right =>
        rw [Domain.fault?] at h
        split at h
        · next a b ha hb =>
            have heval : op.eval a b = .error err := Domain.errorOf?_eq_some_iff.mp h
            rcases BinaryOperator.eval_eq_error_iff_kind.mp heval with hkind | ⟨rfl, hzero⟩
            · exact .binary line ha hb hkind
            · exact .division line ha hb hzero
        · cases h
    | _ => cases h
  · intro h
    cases h with
    | @minus line operand a err ha hkind =>
        have hnegate : a.negate = .error err := by
          rw [← a.map_kind_negate] at hkind
          cases hv : a.negate <;> simp_all [Except.map]
        rw [Domain.fault?, show Domain.values.evaluate operand = _ from ha]
        exact Domain.errorOf?_eq_some_iff.mpr hnegate
    | @binary line op left right a b err ha hb hkind =>
        rw [Domain.fault?, show Domain.values.evaluate left = _ from ha,
          show Domain.values.evaluate right = _ from hb]
        exact Domain.errorOf?_eq_some_iff.mpr
          (BinaryOperator.eval_eq_error_iff_kind.mpr (Or.inl hkind))
    | @division line op left right a b ha hb hzero =>
        rw [Domain.fault?, show Domain.values.evaluate left = _ from ha,
          show Domain.values.evaluate right = _ from hb]
        exact Domain.errorOf?_eq_some_iff.mpr (BinaryOperator.eval_of_dividesByZero hzero)

/-- The error of a tree is that of the leftmost node that fails. -/
theorem evaluate_eq_error_iff {e : Expression} (he : e.IsConstant) (err : EvalError) :
    e.evaluate = some (.error err) ↔
      ∃ before n after, e.nodes = before ++ n :: after ∧ n.FailsWith err ∧
        ∀ m ∈ before, ∀ err', ¬ m.FailsWith err' := by
  obtain ⟨outcome, houtcome⟩ := Domain.values.exists_evaluate he
  have hfault := Domain.values.findSome?_fault? he houtcome
  calc
    e.evaluate = some (.error err) ↔ Domain.errorOf? outcome = some err := by
      rw [Domain.errorOf?_eq_some_iff, evaluate, houtcome, Option.some.injEq]
    _ ↔ e.nodes.findSome? Domain.values.fault? = some err := by rw [hfault]
    _ ↔ _ := by
      rw [List.findSome?_eq_some_iff]
      simp only [fault?_eq_some_iff, Option.eq_none_iff_forall_ne_some, ne_eq]

end Expression

end ScriptTree
