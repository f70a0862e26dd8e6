import ScriptTree.Evaluation

/-!
# Operators on numbers

Integers and doubles are the values that folding works on.  On two of them every operator that is
not logical has a result, except for an integer division or remainder by zero.
-/

namespace ScriptTree

/-- Whether a value is an integer or a double. -/
def Value.isNumber : Value → Bool
  | .integer _ | .double _ => true
  | .boolean _ | .null => false

/-- An integer is divided by the integer zero, or its remainder by zero is taken. -/
def DividesByZero (op : BinaryOperator) (left right : Value) : Prop :=
  (op = .div ∨ op = .mod) ∧ left.kind = .integer ∧ right = .integer 0

/-- The opposite of a number is a number. -/
theorem Value.exists_negate_of_isNumber {a : Value} (ha : a.isNumber) :
    ∃ v, a.negate = .ok v ∧ v.isNumber := by
  cases a with
  | integer n => exact ⟨.integer (-n), rfl, rfl⟩
  | double x => exact ⟨.double (-x), rfl, rfl⟩
  | boolean b => simp [isNumber] at ha
  | null => simp [isNumber] at ha

namespace BinaryOperator

/-- On two integers only a zero divisor leaves an operator without a result. -/
theorem evalIntegers_eq_error_iff {op : BinaryOperator} (hop : op.isLogical = false)
    (m n : Int64) (e : EvalError) :
    op.evalIntegers m n = .error e ↔
      e = .divisionByZero ∧ (op = .div ∨ op = .mod) ∧ n = 0 := by
  by_cases hn : n = 0
  · cases op <;> simp_all [evalIntegers, isLogical, eq_comm]
  · cases op <;> simp_all [evalIntegers, isLogical]

/-- On two doubles an operator always has a result. -/
theorem exists_evalDoubles {op : BinaryOperator} (hop : op.isLogical = false) (x y : Float) :
    ∃ v, op.evalDoubles x y = .ok v := by
  cases op <;> simp_all [evalDoubles, isLogical]

/-- Two numbers have a result under every operator that is not logical, unless an integer is
divided by zero; that is the only error which can arise. -/
theorem eval_eq_error_iff {op : BinaryOperator} (hop : op.isLogical = false) {a b : Value}
    (ha : a.isNumber) (hb : b.isNumber) (e : EvalError) :
    op.eval a b = .error e ↔ e = .divisionByZero ∧ DividesByZero op a b := by
  have hdoubles : ∀ x y : Float, ¬ op.evalDoubles x y = .error e := by
    intro x y hxy
    obtain ⟨v, hv⟩ := exists_evalDoubles hop x y
    simp [hv] at hxy
  cases a with
  | integer m =>
      cases b with
      | integer n =>
          simp [eval, evalIntegers_eq_error_iff hop, DividesByZero, Value.kind]
      | double y => simp [eval, hdoubles, DividesByZero]
      | boolean b => simp [Value.isNumber] at hb
      | null => simp [Value.isNumber] at hb
  | double x =>
      cases b with
      | integer n => simp [eval, hdoubles, DividesByZero, Value.kind]
      | double y => simp [eval, hdoubles, DividesByZero]
      | boolean b => simp [Value.isNumber] at hb
      | null => simp [Value.isNumber] at hb
  | boolean a => simp [Value.isNumber] at ha
  | null => simp [Value.isNumber] at ha

/-- So two numbers have a result under such an operator exactly if no integer is divided by zero. -/
theorem exists_eval_iff {op : BinaryOperator} (hop : op.isLogical = false) {a b : Value}
    (ha : a.isNumber) (hb : b.isNumber) :
    (∃ value, op.eval a b = .ok value) ↔ ¬ DividesByZero op a b := by
  constructor
  · rintro ⟨value, hvalue⟩ hzero
    have herror := (eval_eq_error_iff hop ha hb .divisionByZero).mpr ⟨rfl, hzero⟩
    rw [hvalue] at herror
    cases herror
  · intro hzero
    cases heval : op.eval a b with
    | ok value => exact ⟨value, rfl⟩
    | error e => exact absurd ((eval_eq_error_iff hop ha hb e).mp heval).2 hzero

end BinaryOperator

end ScriptTree
