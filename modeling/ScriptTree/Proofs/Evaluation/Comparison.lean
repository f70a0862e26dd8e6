import Mathlib.Logic.ExistsUnique
import ScriptTree.Proofs.Double
import ScriptTree.Proofs.Evaluation.Kind

/-!
# Comparisons

The six comparisons are evaluated in four ways, for integers, for doubles, for booleans and where a
null is involved.  On numbers all six are read off one result, which is less, equal, greater, or
nothing if a NaN is compared.  So they agree with each other whatever the operands are.
-/

namespace ScriptTree

/-! ## Numbers -/

namespace Value

/-- Whether a value is a double without a numeric meaning. -/
def isNaN : Value → Bool
  | .double x => x.isNaN
  | _ => false

/-- How a number compares with another one.  Nothing compares with a NaN, and values that are no
numbers do not compare. -/
def compare? : Value → Value → Option Ordering
  | .integer m, .integer n => some (compare m n)
  | .integer m, .double y => Double.compare? (Double.ofInteger m) y
  | .double x, .integer n => Double.compare? x (Double.ofInteger n)
  | .double x, .double y => Double.compare? x y
  | _, _ => none

theorem compare?_swap (a b : Value) : b.compare? a = (a.compare? b).map Ordering.swap := by
  cases a with
  | integer m =>
      cases b with
      | integer n => exact congrArg some Std.OrientedOrd.eq_swap
      | double y => exact Double.compare?_swap _ _
      | _ => rfl
  | double x =>
      cases b with
      | integer n => exact Double.compare?_swap _ _
      | double y => exact Double.compare?_swap _ _
      | _ => rfl
  | _ => cases b <;> rfl

/-- The double of an integer is no NaN, so only a double can keep two numbers from comparing. -/
theorem compare?_eq_none_iff {a b : Value} (ha : a.isNumber) (hb : b.isNumber) :
    a.compare? b = none ↔ a.isNaN = true ∨ b.isNaN = true := by
  cases a with
  | integer m =>
      cases b with
      | integer n => simp [compare?, isNaN]
      | double y =>
          rw [compare?, Double.compare?_eq_none_iff, Double.isNaN_ofInteger]
          exact Iff.rfl
      | _ => cases hb
  | double x =>
      cases b with
      | integer n =>
          rw [compare?, Double.compare?_eq_none_iff, Double.isNaN_ofInteger]
          exact Iff.rfl
      | double y => exact Double.compare?_eq_none_iff
      | _ => cases hb
  | _ => cases ha

end Value

namespace BinaryOperator

/-- What a comparison answers for numbers that compare in a given way. -/
def accepts : BinaryOperator → Option Ordering → Bool
  | .eq, result => result == some .eq
  | .ne, result => result != some .eq
  | .gt, result => result == some .gt
  | .ge, result => result.any Ordering.isGE
  | .lt, result => result == some .lt
  | .le, result => result.any Ordering.isLE
  | _, _ => false

theorem evalIntegers_of_isComparison {op : BinaryOperator} (hop : op.isComparison) (m n : Int64) :
    op.evalIntegers m n = .ok (.boolean (op.accepts (some (compare m n)))) := by
  have heq : (m == n) = (compare m n == .eq) := by
    rw [Bool.eq_iff_iff, beq_iff_eq, beq_iff_eq, Std.compare_eq_iff_eq]
  have hgt : decide (m > n) = (compare m n == .gt) := by
    rw [Bool.eq_iff_iff, decide_eq_true_iff, beq_iff_eq, Std.compare_eq_gt, gt_iff_lt]
  have hge : decide (m ≥ n) = (compare m n).isGE := by
    rw [Bool.eq_iff_iff, decide_eq_true_iff, Std.isGE_compare, ge_iff_le]
  have hlt : decide (m < n) = (compare m n == .lt) := by
    rw [Bool.eq_iff_iff, decide_eq_true_iff, beq_iff_eq, Std.compare_eq_lt]
  have hle : decide (m ≤ n) = (compare m n).isLE := by
    rw [Bool.eq_iff_iff, decide_eq_true_iff, Std.isLE_compare]
  cases op
  case eq => rw [evalIntegers, heq]; rfl
  case ne => rw [evalIntegers, bne, heq]; rfl
  case gt => rw [evalIntegers, hgt]; rfl
  case ge => rw [evalIntegers, hge]; rfl
  case lt => rw [evalIntegers, hlt]; rfl
  case le => rw [evalIntegers, hle]; rfl
  all_goals cases hop

theorem evalDoubles_of_isComparison {op : BinaryOperator} (hop : op.isComparison) (x y : Float) :
    op.evalDoubles x y = .ok (.boolean (op.accepts (Double.compare? x y))) := by
  -- Greater is less with the operands exchanged.
  have hgt : decide (x > y) = (Double.compare? x y == some .gt) := by
    change decide (y < x) = _
    rw [Double.decide_lt_eq_compare?, Double.compare?_swap]
    cases Double.compare? x y with
    | none => rfl
    | some o => cases o <;> rfl
  have hge : decide (x ≥ y) = (Double.compare? x y).any Ordering.isGE := by
    change decide (y ≤ x) = _
    rw [Double.decide_le_eq_compare?, Double.compare?_swap]
    cases Double.compare? x y with
    | none => rfl
    | some o => cases o <;> rfl
  cases op
  case eq => rw [evalDoubles, Double.beq_eq_compare?]; rfl
  case ne => rw [evalDoubles, bne, Double.beq_eq_compare?]; rfl
  case gt => rw [evalDoubles, hgt]; rfl
  case ge => rw [evalDoubles, hge]; rfl
  case lt => rw [evalDoubles, Double.decide_lt_eq_compare?]; rfl
  case le => rw [evalDoubles, Double.decide_le_eq_compare?]; rfl
  all_goals cases hop

/-- On numbers a comparison has a result, which depends on how the numbers compare. -/
theorem eval_of_isComparison {op : BinaryOperator} (hop : op.isComparison) {a b : Value}
    (ha : a.isNumber) (hb : b.isNumber) :
    op.eval a b = .ok (.boolean (op.accepts (a.compare? b))) := by
  cases a with
  | integer m =>
      cases b with
      | integer n => exact evalIntegers_of_isComparison hop m n
      | double y => exact evalDoubles_of_isComparison hop (Double.ofInteger m) y
      | _ => cases hb
  | double x =>
      cases b with
      | integer n => exact evalDoubles_of_isComparison hop x (Double.ofInteger n)
      | double y => exact evalDoubles_of_isComparison hop x y
      | _ => cases hb
  | _ => cases ha

/-! ## Operands exchanged -/

/-- The comparison that says the same of exchanged operands. -/
def mirror : BinaryOperator → BinaryOperator
  | .gt => .lt
  | .ge => .le
  | .lt => .gt
  | .le => .ge
  | op => op

theorem accepts_mirror (op : BinaryOperator) (result : Option Ordering) :
    op.mirror.accepts (result.map Ordering.swap) = op.accepts result := by
  cases result with
  | none => cases op <;> rfl
  | some o => cases op <;> cases o <;> rfl

end BinaryOperator

/-- The same complaint about the operands in the other order, made by an operation. -/
def EvalError.exchanged (operation : String) : EvalError → EvalError
  | .divisionByZero => .divisionByZero
  | .unsupportedOperand _ kind => .unsupportedOperand operation kind
  | .unsupportedOperands _ left right => .unsupportedOperands operation right left
  | .notBoolean _ kind => .notBoolean operation kind

namespace BinaryOperator

/-- A comparison and its mirror image have the same result on exchanged operands, or they fail
for the same reason. -/
theorem eval_mirror {op : BinaryOperator} (hop : op.isComparison) (a b : Value) :
    op.eval a b = (op.mirror.eval b a).mapError (.exchanged op.symbol) := by
  by_cases hnumbers : a.isNumber ∧ b.isNumber
  · obtain ⟨ha, hb⟩ := hnumbers
    have hmirror : op.mirror.isComparison := by
      cases op <;> first | rfl | cases hop
    rw [eval_of_isComparison hop ha hb, eval_of_isComparison hmirror hb ha,
      a.compare?_swap b, accepts_mirror]
    rfl
  · -- Without two numbers only the kinds of the operands matter, and whether they are equal.
    cases a with
    | boolean p =>
        cases b with
        | boolean q =>
            have hcomm : (p == q) = (q == p) := Bool.beq_comm
            cases op
            case eq => exact congrArg (fun c => Except.ok (Value.boolean c)) hcomm
            case ne => exact congrArg (fun c => Except.ok (Value.boolean !c)) hcomm
            all_goals first | rfl | cases hop
        | _ => cases op <;> rfl
    | null => cases b <;> cases op <;> rfl
    | _ =>
        cases b with
        | integer | double => exact absurd ⟨rfl, rfl⟩ hnumbers
        | _ => cases op <;> rfl

/-! ## Comparisons by size -/

def isOrder : BinaryOperator → Bool
  | .gt | .ge | .lt | .le => true
  | _ => false

theorem isNumeric_of_apply_eq_ok {op : BinaryOperator} (hop : op.isOrder)
    {left right kind : Value.Kind} (h : Value.Kind.apply op left right = .ok kind) :
    left.isNumeric ∧ right.isNumeric := by
  cases op
  case gt | ge | lt | le =>
    cases left <;> cases right <;> first | exact ⟨rfl, rfl⟩ | cases h
  all_goals cases hop

/-- Only numbers are greater or less than each other. -/
theorem exists_eval_iff_of_isOrder {op : BinaryOperator} (hop : op.isOrder) (a b : Value) :
    (∃ v, op.eval a b = .ok v) ↔ a.isNumber ∧ b.isNumber := by
  constructor
  · rintro ⟨v, hv⟩
    rw [Value.isNumber_eq, Value.isNumber_eq]
    exact isNumeric_of_apply_eq_ok hop (apply_kind_of_eval hv)
  · rintro ⟨ha, hb⟩
    have hcomparison : op.isComparison := by
      cases op <;> first | rfl | cases hop
    exact ⟨_, eval_of_isComparison hcomparison ha hb⟩

/-! ## Coherence -/

/-- The comparison is true of the two values. -/
def Holds (op : BinaryOperator) (a b : Value) : Prop :=
  op.eval a b = .ok (.boolean true)

theorem holds_iff {op : BinaryOperator} (hop : op.isComparison) {a b : Value}
    (ha : a.isNumber) (hb : b.isNumber) : op.Holds a b ↔ op.accepts (a.compare? b) = true := by
  rw [Holds, eval_of_isComparison hop ha hb, Except.ok.injEq, Value.boolean.injEq]

/-- Less, equal or greater, as a comparison. -/
def ofOrdering : Ordering → BinaryOperator
  | .lt => .lt
  | .eq => .eq
  | .gt => .gt

theorem accepts_ofOrdering (o result : Ordering) :
    (ofOrdering o).accepts (some result) = true ↔ o = result := by
  cases o <;> cases result <;> decide

/-- Values are equal or different, or they cannot be told apart at all. -/
theorem eval_eq_and_ne (a b : Value) :
    (∃ c, eq.eval a b = .ok (.boolean c) ∧ ne.eval a b = .ok (.boolean !c)) ∨
      eq.eval a b = .error (.unsupportedOperands eq.symbol a.kind b.kind) ∧
        ne.eval a b = .error (.unsupportedOperands ne.symbol a.kind b.kind) := by
  cases a <;> cases b <;> first | exact Or.inl ⟨_, rfl, rfl⟩ | exact Or.inr ⟨rfl, rfl⟩

/-- On one kind equality is that of values, with doubles compared as numbers. -/
theorem eval_eq_of_kind_eq {a b : Value} (h : a.kind = b.kind) :
    eq.eval a b = .ok (.boolean (a == b)) := by
  cases a <;> cases b <;> first | rfl | cases h

end BinaryOperator

open BinaryOperator in
/-- The six comparisons of two values agree with each other. -/
structure ComparesCoherently (a b : Value) : Prop where
  /-- Equality and its opposite succeed together, with opposite answers. -/
  opposite :
    (∃ c, eq.eval a b = .ok (.boolean c) ∧ ne.eval a b = .ok (.boolean !c)) ∨
      eq.eval a b = .error (.unsupportedOperands eq.symbol a.kind b.kind) ∧
        ne.eval a b = .error (.unsupportedOperands ne.symbol a.kind b.kind)
  eq_exchanged : eq.eval a b = (eq.eval b a).mapError (.exchanged eq.symbol)
  gt_exchanged : gt.eval a b = (lt.eval b a).mapError (.exchanged gt.symbol)
  ge_exchanged : ge.eval a b = (le.eval b a).mapError (.exchanged ge.symbol)
  succeeds : ∀ op : BinaryOperator, op.isOrder →
    ((∃ v, op.eval a b = .ok v) ↔ a.isNumber ∧ b.isNumber)
  /-- What succeeds on numbers is true or false. -/
  answers : a.isNumber → b.isNumber → ∀ op : BinaryOperator, op.isComparison →
    ∃ c, op.eval a b = .ok (.boolean c)
  ge_iff : a.isNumber → b.isNumber → (ge.Holds a b ↔ gt.Holds a b ∨ eq.Holds a b)
  le_iff : a.isNumber → b.isNumber → (le.Holds a b ↔ lt.Holds a b ∨ eq.Holds a b)
  /-- Exactly one of less, equal and greater is true. -/
  trichotomy : a.isNumber → b.isNumber → a.isNaN = false → b.isNaN = false →
    ∃! o, (ofOrdering o).Holds a b
  /-- A NaN is different from every number, itself included, and no other comparison is true. -/
  unordered : a.isNumber → b.isNumber → a.isNaN = true ∨ b.isNaN = true →
    ∀ op : BinaryOperator, op.isComparison → (op.Holds a b ↔ op = ne)
  same_kind : a.kind = b.kind → eq.eval a b = .ok (.boolean (a == b))

open BinaryOperator in
/-- Whatever is compared, integers, doubles, booleans or nulls, with NaNs and signed zeros among
them, the six comparisons fit together. -/
theorem comparisons_cohere (a b : Value) : ComparesCoherently a b := by
  constructor
  case opposite => exact eval_eq_and_ne a b
  case eq_exchanged => exact eval_mirror rfl a b
  case gt_exchanged => exact eval_mirror rfl a b
  case ge_exchanged => exact eval_mirror rfl a b
  case succeeds => exact fun op hop => exists_eval_iff_of_isOrder hop a b
  case answers => exact fun ha hb op hop => ⟨_, eval_of_isComparison hop ha hb⟩
  case ge_iff =>
    intro ha hb
    rw [holds_iff rfl ha hb, holds_iff rfl ha hb, holds_iff rfl ha hb]
    cases a.compare? b with
    | none => decide
    | some o => cases o <;> decide
  case le_iff =>
    intro ha hb
    rw [holds_iff rfl ha hb, holds_iff rfl ha hb, holds_iff rfl ha hb]
    cases a.compare? b with
    | none => decide
    | some o => cases o <;> decide
  case trichotomy =>
    intro ha hb hna hnb
    have hsome : a.compare? b ≠ none := by
      rw [Ne, Value.compare?_eq_none_iff ha hb, hna, hnb]
      decide
    obtain ⟨result, hresult⟩ := Option.ne_none_iff_exists'.mp hsome
    have hholds : ∀ o, (ofOrdering o).Holds a b ↔ o = result := by
      intro o
      have hcomparison : (ofOrdering o).isComparison := by cases o <;> rfl
      rw [holds_iff hcomparison ha hb, hresult, accepts_ofOrdering]
    exact ⟨result, (hholds result).mpr rfl, fun o => (hholds o).mp⟩
  case unordered =>
    intro ha hb hnan op hop
    rw [holds_iff hop ha hb, (Value.compare?_eq_none_iff ha hb).mpr hnan]
    cases op <;> decide
  case same_kind => exact eval_eq_of_kind_eq

/-- An integer against a NaN, and the zeros of either sign: the first are different and nothing
else, the second are equal although their bits differ, also as values. -/
theorem comparisons_cohere_at_limits :
    (∀ op : BinaryOperator, op.isComparison →
      (op.Holds (.integer 1) (.double Double.notANumber) ↔ op = .ne)) ∧
    (BinaryOperator.ge.Holds (.integer 0) (.double (-0))) ∧
    BinaryOperator.eq.eval (.double 0) (.double (-0)) = .ok (.boolean true) ∧
    (0 : Float) ≠ -0 := by
  have hzero : BinaryOperator.eq.Holds (.integer 0) (.double (-0)) := rfl
  exact ⟨(comparisons_cohere _ _).unordered rfl rfl (Or.inr rfl),
    ((comparisons_cohere _ _).ge_iff rfl rfl).mpr (Or.inr hzero),
    (comparisons_cohere _ _).same_kind rfl, by decide⟩

end ScriptTree
