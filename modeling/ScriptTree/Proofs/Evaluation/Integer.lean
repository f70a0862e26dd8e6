import Mathlib.Algebra.Group.Int.Defs
import ScriptTree.Evaluation

/-!
# Division of integers

A quotient is cut towards zero, and the remainder is what it leaves of the dividend, so a remainder
has the sign of the dividend.  The one quotient out of range, that of the least integer by minus
one, wraps around.  Products and sums wrap around as well, so quotient and remainder give back the
dividend even there.
-/

namespace ScriptTree

section Integers

variable (a b : Int64)

/-- The quotient that wraps around is the exact one, wrapped around. -/
theorem Int64.div_eq_ofInt : a / b = Int64.ofInt (a.toInt.tdiv b.toInt) := by
  rw [← Int64.toInt_inj, Int64.toInt_div, Int64.toInt_ofInt]

theorem Int64.mod_eq_ofInt : a % b = Int64.ofInt (a.toInt.tmod b.toInt) := by
  rw [← Int64.toInt_mod, Int64.ofInt_toInt]

/-- Quotients and remainders recombine, also where the quotient does not fit. -/
theorem Int64.div_mul_add_mod : a / b * b + a % b = a := by
  have hb : b = Int64.ofInt b.toInt := (Int64.ofInt_toInt b).symm
  calc
    a / b * b + a % b =
        Int64.ofInt (a.toInt.tdiv b.toInt) * Int64.ofInt b.toInt +
          Int64.ofInt (a.toInt.tmod b.toInt) := by
      rw [Int64.div_eq_ofInt, Int64.mod_eq_ofInt, ← hb]
    _ = Int64.ofInt (a.toInt.tdiv b.toInt * b.toInt + a.toInt.tmod b.toInt) := by
      rw [Int64.ofInt_add, Int64.ofInt_mul]
    _ = a := by rw [Int.tdiv_mul_add_tmod, Int64.ofInt_toInt]

theorem Int64.toInt_div_eq : (a / b).toInt =
    if a = Int64.minValue ∧ b = -1 then -2 ^ 63 else a.toInt.tdiv b.toInt := by
  by_cases ha : a = Int64.minValue
  · by_cases hb : b = -1
    · subst ha hb
      decide
    · rw [if_neg fun h => hb h.2, Int64.toInt_div_of_ne_right a b hb]
  · rw [if_neg fun h => ha h.1, Int64.toInt_div_of_ne_left a b ha]

variable {b}

theorem Int64.natAbs_toInt_mod_lt (hb : b ≠ 0) :
    (a % b).toInt.natAbs < b.toInt.natAbs := by
  have hpos : 0 < b.toInt.natAbs := by
    rw [Int.natAbs_pos]
    intro h
    apply hb
    rw [← Int64.toInt_inj, h]
    rfl
  rw [Int64.toInt_mod, Int.natAbs_tmod]
  exact Nat.mod_lt _ hpos

theorem Int64.toInt_mod_eq_zero_or_sign (b : Int64) :
    (a % b).toInt = 0 ∨ (a % b).toInt.sign = a.toInt.sign := by
  rw [Int64.toInt_mod]
  by_cases hdvd : b.toInt ∣ a.toInt
  · exact Or.inl (Int.tmod_eq_zero_of_dvd hdvd)
  · right
    rw [Int.sign_tmod, if_neg hdvd]

end Integers

/-- What an integer and a divisor have to do with their quotient and remainder. -/
structure DividesTowardsZero (a b q r : Int64) : Prop where
  quotient : q.toInt =
    if a = Int64.minValue ∧ b = -1 then -2 ^ 63 else a.toInt.tdiv b.toInt
  remainder : r.toInt = a.toInt - b.toInt * a.toInt.tdiv b.toInt
  smaller : r.toInt.natAbs < b.toInt.natAbs
  sign : r.toInt = 0 ∨ r.toInt.sign = a.toInt.sign
  /-- Where the quotient does not fit there is no remainder. -/
  overflow : a = Int64.minValue → b = -1 → r = 0
  /-- The evaluator itself gets the dividend back. -/
  recombine :
    (do
      let product ← BinaryOperator.mul.eval (.integer q) (.integer b)
      BinaryOperator.add.eval product (.integer r)) = .ok (.integer a)

theorem dividesTowardsZero (a : Int64) {b : Int64} (hb : b ≠ 0) :
    DividesTowardsZero a b (a / b) (a % b) where
  quotient := Int64.toInt_div_eq a b
  remainder := by rw [Int64.toInt_mod, Int.tmod_def]
  smaller := Int64.natAbs_toInt_mod_lt a hb
  sign := Int64.toInt_mod_eq_zero_or_sign a b
  overflow := by
    rintro rfl rfl
    decide
  recombine := by
    change Except.ok (Value.integer (a / b * b + a % b)) = _
    rw [Int64.div_mul_add_mod]

/-- An integer has no quotient and no remainder by zero, and both by everything else: the exact ones
but for the one quotient that wraps around.  A minus before an integer is a difference from zero and
a product with minus one, and two of them cancel, also before the least integer. -/
theorem integer_division (a b : Int64) :
    (b = 0 →
      BinaryOperator.div.eval (.integer a) (.integer b) = .error .divisionByZero ∧
      BinaryOperator.mod.eval (.integer a) (.integer b) = .error .divisionByZero) ∧
    (b ≠ 0 → ∃ q r : Int64,
      BinaryOperator.div.eval (.integer a) (.integer b) = .ok (.integer q) ∧
      BinaryOperator.mod.eval (.integer a) (.integer b) = .ok (.integer r) ∧
      DividesTowardsZero a b q r) ∧
    (Value.integer b).negate = BinaryOperator.sub.eval (.integer 0) (.integer b) ∧
    (Value.integer b).negate = BinaryOperator.mul.eval (.integer (-1)) (.integer b) ∧
    (Value.integer b).negate.bind Value.negate = .ok (.integer b) := by
  refine ⟨?_, ?_, ?_, ?_, ?_⟩
  · rintro rfl
    exact ⟨rfl, rfl⟩
  · intro hb
    refine ⟨a / b, a % b, ?_, ?_, dividesTowardsZero a hb⟩
    · rw [BinaryOperator.eval, BinaryOperator.evalIntegers, if_neg hb]
    · rw [BinaryOperator.eval, BinaryOperator.evalIntegers, if_neg hb]
  · change Except.ok (Value.integer (-b)) = .ok (.integer (0 - b))
    rw [Int64.zero_sub]
  · change Except.ok (Value.integer (-b)) = .ok (.integer (-1 * b))
    rw [Int64.neg_mul, Int64.one_mul]
  · change Except.ok (Value.integer (- -b)) = _
    rw [Int64.neg_neg]

/-- The least integer over minus one is the least integer without remainder, `-7` by `2` leaves `-1`
and not `1`, and nothing is divided by zero. -/
theorem integer_division_limits :
    DividesTowardsZero Int64.minValue (-1) Int64.minValue 0 ∧
    DividesTowardsZero (-7) 2 (-3) (-1) ∧
    BinaryOperator.div.eval (.integer 7) (.integer 0) = .error .divisionByZero := by
  obtain ⟨-, hleast, -⟩ := integer_division Int64.minValue (-1)
  obtain ⟨-, hodd, -⟩ := integer_division (-7) 2
  obtain ⟨hzero, -⟩ := integer_division 7 0
  obtain ⟨q, r, hq, hr, hleast⟩ := hleast (by decide)
  obtain ⟨q', r', hq', hr', hodd⟩ := hodd (by decide)
  cases hq
  cases hr
  cases hq'
  cases hr'
  exact ⟨hleast, hodd, (hzero rfl).1⟩

end ScriptTree
