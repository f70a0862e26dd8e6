import Mathlib.Data.Int.ModEq
import Mathlib.Data.Option.NAry
import ScriptTree.Proofs.Evaluation.Tree
import ScriptTree.Proofs.Folding.Strict

/-!
# Arithmetic of integers

Sums, differences and products of integers are folded one by one, and each of them may wrap around.
Wrapping around is compatible with all of them, so it can as well be done once, on the exact number
that the whole tree stands for.  It does not matter then in which order the tree combines its
literals.
-/

namespace ScriptTree

/-- Among the numbers in range, an integer is the one that differs from an exact number by a
multiple of `2 ^ 64`. -/
def Represents (v : Int64) (z : Int) : Prop :=
  ∀ w : Int, w = v.toInt ↔ -2 ^ 63 ≤ w ∧ w < 2 ^ 63 ∧ w ≡ z [ZMOD 2 ^ 64]

theorem represents_ofInt (z : Int) : Represents (Int64.ofInt z) z := by
  have hcongruent : (Int64.ofInt z).toInt ≡ z [ZMOD 2 ^ 64] := by
    rw [Int64.toInt_ofInt]
    exact Int.bmod_emod
  have hlower : -2 ^ 63 ≤ (Int64.ofInt z).toInt := Int64.le_toInt _
  have hupper : (Int64.ofInt z).toInt < 2 ^ 63 := Int64.toInt_lt _
  intro w
  constructor
  · rintro rfl
    exact ⟨hlower, hupper, hcongruent⟩
  · rintro ⟨hw, hw', hz⟩
    -- Two numbers in range that agree modulo the size of the range are equal.
    have hmod : w % 2 ^ 64 = (Int64.ofInt z).toInt % 2 ^ 64 := hz.trans hcongruent.symm
    omega

/-! ## Exact numbers -/

/-- Sums, differences and products of exact numbers. -/
def BinaryOperator.unbounded? (op : BinaryOperator) (m n : Int) : Option Int :=
  match op with
  | .add => some (m + n)
  | .sub => some (m - n)
  | .mul => some (m * n)
  | _ => none

theorem BinaryOperator.isLogical_of_unbounded? {op : BinaryOperator} {m n z : Int}
    (h : op.unbounded? m n = some z) : op.isLogical = false := by
  cases op
  case and => cases h
  case or => cases h
  all_goals rfl

/-- The evaluator computes with exact numbers and wraps the result around. -/
theorem BinaryOperator.eval_of_unbounded? {op : BinaryOperator} {m n z : Int}
    (h : op.unbounded? m n = some z) :
    op.eval (.integer (Int64.ofInt m)) (.integer (Int64.ofInt n)) =
      .ok (.integer (Int64.ofInt z)) := by
  cases op
  case add =>
    obtain rfl : m + n = z := Option.some.inj h
    rw [Int64.ofInt_add]
    rfl
  case sub =>
    obtain rfl : m - n = z := Option.some.inj h
    rw [Int64.ofInt_sub]
    rfl
  case mul =>
    obtain rfl : m * n = z := Option.some.inj h
    rw [Int64.ofInt_mul]
    rfl
  all_goals cases h

namespace Expression

/-- A tree of integers, sums, differences, products and minuses. -/
def IsIntegral : Expression → Prop :=
  ConsistsOf (fun value => value.kind = .integer) (fun op => op = .add ∨ op = .sub ∨ op = .mul)

/-- Every node computes with exact numbers. -/
def unboundedly : Interpretation (Option Int) where
  literal _ value :=
    match value with
    | .integer n => some n.toInt
    | _ => none
  identifier _ _ := none
  assign _ _ _ := none
  binary _ op left right := do
    let m ← left
    let n ← right
    op.unbounded? m n
  minus _ operand := do
    let n ← operand
    return -n
  call _ _ _ := none

/-- The exact number that a tree of integers stands for. -/
def unbounded? : Expression → Option Int :=
  interpret unboundedly

theorem unbounded?_minus (line : Line) (operand : Expression) :
    (minus line operand).unbounded? = operand.unbounded?.bind fun n => some (-n) :=
  rfl

theorem unbounded?_binary (line : Line) (op : BinaryOperator) (left right : Expression) :
    (binary line op left right).unbounded? =
      left.unbounded?.bind fun m => right.unbounded?.bind fun n => op.unbounded? m n :=
  rfl

theorem unbounded?_call (line : Line) (name : String) (arguments : Option (Chain Expression)) :
    (call line name arguments).unbounded? = none :=
  interpret_call unboundedly line name arguments

theorem exists_unbounded? {e : Expression} (h : e.IsIntegral) : ∃ z, e.unbounded? = some z := by
  induction h with
  | @literal line value hvalue =>
      cases value <;> cases hvalue
      exact ⟨_, rfl⟩
  | minus line _ ih =>
      obtain ⟨n, hn⟩ := ih
      refine ⟨-n, ?_⟩
      rw [unbounded?_minus, hn, Option.bind_some]
  | binary line hop _ _ ihleft ihright =>
      obtain ⟨m, hm⟩ := ihleft
      obtain ⟨n, hn⟩ := ihright
      rw [unbounded?_binary, hm, hn, Option.bind_some, Option.bind_some]
      rcases hop with rfl | rfl | rfl
      · exact ⟨m + n, rfl⟩
      · exact ⟨m - n, rfl⟩
      · exact ⟨m * n, rfl⟩

/-- What is folded is the exact number, wrapped around. -/
theorem foldTree_of_unbounded? {e : Expression} {z : Int} (h : e.unbounded? = some z) :
    e.foldTree = .literal e.line (.integer (Int64.ofInt z)) := by
  induction e generalizing z with
  | literal line value =>
      cases value with
      | integer n =>
          obtain rfl : n.toInt = z := Option.some.inj h
          rw [Int64.ofInt_toInt]
          rfl
      | _ => cases h
  | binary line op left right ihleft ihright =>
      rw [unbounded?_binary, Option.bind_eq_some_iff] at h
      obtain ⟨m, hm, h⟩ := h
      obtain ⟨n, hn, hz⟩ := Option.bind_eq_some_iff.mp h
      have hlogical := BinaryOperator.isLogical_of_unbounded? hz
      have hvalue := BinaryOperator.eval_of_unbounded? hz
      change reduceBinary line op left.foldTree right.foldTree = _
      rw [ihleft hm, ihright hn]
      exact reduceBinary_of_eval hlogical rfl rfl hvalue line
  | minus line operand ih =>
      obtain ⟨n, hn, hz⟩ := Option.bind_eq_some_iff.mp h
      obtain rfl : -n = z := Option.some.inj hz
      change reduceMinus line operand.foldTree = _
      rw [ih hn, Int64.ofInt_neg]
      rfl
  | call line name arguments _ =>
      rw [unbounded?_call] at h
      cases h
  | _ => cases h

/-! ## Rearranged trees -/

/-- Laws of the integers, each as a tree and what may stand in its place. -/
inductive Law : Expression → Expression → Prop where
  | add_assoc (l₁ l₂ l₃ l₄ : Line) (x y z : Expression) :
      Law (.binary l₁ .add (.binary l₂ .add x y) z) (.binary l₃ .add x (.binary l₄ .add y z))
  | mul_assoc (l₁ l₂ l₃ l₄ : Line) (x y z : Expression) :
      Law (.binary l₁ .mul (.binary l₂ .mul x y) z) (.binary l₃ .mul x (.binary l₄ .mul y z))
  | mul_add (l₁ l₂ l₃ l₄ l₅ : Line) (x y z : Expression) :
      Law (.binary l₁ .mul x (.binary l₂ .add y z))
        (.binary l₃ .add (.binary l₄ .mul x y) (.binary l₅ .mul x z))
  | zero_sub (l₁ l₂ l₃ : Line) (x : Expression) :
      Law (.binary l₁ .sub (.literal l₂ (.integer 0)) x) (.minus l₃ x)
  | neg_one_mul (l₁ l₂ l₃ : Line) (x : Expression) :
      Law (.binary l₁ .mul (.literal l₂ (.integer (-1))) x) (.minus l₃ x)
  | neg_neg (l₁ l₂ : Line) (x : Expression) : Law (.minus l₁ (.minus l₂ x)) x

/-- One tree is got from the other by such laws, at any nodes and in both directions.  The lines of
the nodes do not matter. -/
inductive Rearranges : Expression → Expression → Prop where
  | law {e e' : Expression} : Law e e' → Rearranges e e'
  | refl (e : Expression) : Rearranges e e
  | symm {e e' : Expression} : Rearranges e e' → Rearranges e' e
  | trans {e e' e'' : Expression} : Rearranges e e' → Rearranges e' e'' → Rearranges e e''
  | minus (l l' : Line) {e e' : Expression} : Rearranges e e' →
      Rearranges (.minus l e) (.minus l' e')
  | binary (l l' : Line) (op : BinaryOperator) {x x' y y' : Expression} : Rearranges x x' →
      Rearranges y y' → Rearranges (.binary l op x y) (.binary l' op x' y')

theorem unbounded?_add (line : Line) (left right : Expression) :
    (binary line .add left right).unbounded? =
      Option.map₂ (· + ·) left.unbounded? right.unbounded? := by
  rw [unbounded?_binary]
  cases left.unbounded? <;> cases right.unbounded? <;> rfl

theorem unbounded?_mul (line : Line) (left right : Expression) :
    (binary line .mul left right).unbounded? =
      Option.map₂ (· * ·) left.unbounded? right.unbounded? := by
  rw [unbounded?_binary]
  cases left.unbounded? <;> cases right.unbounded? <;> rfl

/-- Trees on both sides of a law stand for the same number, or for none. -/
theorem Law.unbounded?_eq {e e' : Expression} (h : Law e e') : e.unbounded? = e'.unbounded? := by
  cases h with
  | add_assoc l₁ l₂ l₃ l₄ x y z =>
      simp only [unbounded?_add]
      exact Option.map₂_assoc Int.add_assoc
  | mul_assoc l₁ l₂ l₃ l₄ x y z =>
      simp only [unbounded?_mul]
      exact Option.map₂_assoc Int.mul_assoc
  | mul_add l₁ l₂ l₃ l₄ l₅ x y z =>
      simp only [unbounded?_add, unbounded?_mul]
      -- One factor stands in both products, so the number is missing on both sides or on none.
      cases x.unbounded? with
      | none => rfl
      | some m =>
          cases y.unbounded? <;> cases z.unbounded? <;> simp [Int.mul_add]
  | zero_sub l₁ l₂ l₃ x =>
      have hzero : (literal l₂ (.integer 0)).unbounded? = some 0 := rfl
      rw [unbounded?_binary, hzero, unbounded?_minus, Option.bind_some]
      simp only [BinaryOperator.unbounded?, Int.zero_sub]
  | neg_one_mul l₁ l₂ l₃ x =>
      have hone : (literal l₂ (.integer (-1))).unbounded? = some (-1) := rfl
      rw [unbounded?_binary, hone, unbounded?_minus, Option.bind_some]
      simp only [BinaryOperator.unbounded?, Int.neg_mul, Int.one_mul]
  | neg_neg l₁ l₂ =>
      rw [unbounded?_minus, unbounded?_minus, Option.bind_assoc]
      simp only [Option.bind_some, Int.neg_neg, Option.bind_fun_some]

theorem Rearranges.unbounded?_eq {e e' : Expression} (h : e.Rearranges e') :
    e.unbounded? = e'.unbounded? := by
  induction h with
  | law h => exact h.unbounded?_eq
  | refl e => rfl
  | symm _ ih => exact ih.symm
  | trans _ _ ih ih' => exact ih.trans ih'
  | minus l l' _ ih => rw [unbounded?_minus, unbounded?_minus, ih]
  | binary l l' op _ _ ihx ihy => rw [unbounded?_binary, unbounded?_binary, ihx, ihy]

end Expression

/-- A tree of integers, sums, differences, products and minuses is built as one integer literal, and
no constructor on the way fails.  The literal represents the exact number that the tree stands for,
so all trees that stand for this number are built as the same integer, and rearranged trees are
among them. -/
theorem integer_arithmetic_wraps {e : Expression} (he : e.IsIntegral) :
    ∃ (z : Int) (v : Int64), e.unbounded? = some z ∧ Represents v z ∧
      e.FoldsTo (.literal e.line (.integer v)) ∧
      (∀ e' : Expression, e'.unbounded? = some z → e'.FoldsTo (.literal e'.line (.integer v))) ∧
      ∀ e' : Expression, e.Rearranges e' → e'.unbounded? = some z := by
  obtain ⟨z, hz⟩ := Expression.exists_unbounded? he
  have hfolds (e' : Expression) (h : e'.unbounded? = some z) :
      e'.FoldsTo (.literal e'.line (.integer (Int64.ofInt z))) := by
    rw [← Expression.foldTree_of_unbounded? h]
    exact e'.foldsTo_foldTree
  refine ⟨z, Int64.ofInt z, hz, represents_ofInt z, hfolds e hz, hfolds, ?_⟩
  intro e' h
  rw [← h.unbounded?_eq, hz]

/-- A minus before the least integer, and the difference of zero and the least integer, both stand
for `2 ^ 63` and are built as the least integer. -/
theorem integer_arithmetic_wraps_least :
    ∃ e e' : Expression, e.unbounded? = some (2 ^ 63) ∧ e'.unbounded? = some (2 ^ 63) ∧
      e.FoldsTo (.literal 2 (.integer Int64.minValue)) ∧
      e'.FoldsTo (.literal 3 (.integer Int64.minValue)) := by
  let least : Expression := .literal 1 (.integer Int64.minValue)
  have hleast : (Expression.minus 2 least).IsIntegral := .minus 2 (.literal 1 rfl)
  obtain ⟨z, v, hz, hv, hfolds, hsame, hrearranged⟩ := integer_arithmetic_wraps hleast
  have hexact : (Expression.minus 2 least).unbounded? = some (2 ^ 63) := rfl
  obtain rfl : 2 ^ 63 = z := Option.some.inj (hexact.symm.trans hz)
  have hvalue : v = Int64.minValue := by
    rw [← Int64.toInt_inj]
    exact ((hv (-2 ^ 63)).mpr (by decide)).symm
  have hdifference := hrearranged _ (.symm (.law (.zero_sub 3 1 2 least)))
  rw [← hvalue]
  exact ⟨_, _, hz, hdifference, hfolds, hsame _ hdifference⟩

end ScriptTree
