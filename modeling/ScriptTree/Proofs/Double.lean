import Mathlib.Algebra.Group.Nat.Defs
import ScriptTree.Double

/-!
# Comparing doubles

One double is less than another, equal to it or greater, or it does not compare with it at all,
and then one of the two is a NaN.  Every comparison of doubles reads its answer off this one.  The
double of an integer is never a NaN, so integers always compare with numbers.
-/

namespace ScriptTree.Double

open Float.Model (UnpackedFloat Format)

/-! ## One comparison for all -/

/-- How a double compares with another one.  The two zeros are equal. -/
def compare? (x y : Float) : Option Ordering :=
  x.toModel.compare y.toModel

theorem beq_eq_compare? (x y : Float) : (x == y) = (compare? x y == some .eq) := rfl

theorem decide_lt_eq_compare? (x y : Float) :
    decide (x < y) = (compare? x y == some .lt) := by
  rw [Bool.eq_iff_iff, decide_eq_true_iff]
  exact decide_eq_true_iff

theorem decide_le_eq_compare? (x y : Float) :
    decide (x ≤ y) = (compare? x y).any Ordering.isLE := by
  rw [Bool.eq_iff_iff, decide_eq_true_iff]
  exact decide_eq_true_iff

private theorem compare_finite_swap (e f : Int) (m n : Nat) :
    (compare f e).then (compare n m) = ((compare e f).then (compare m n)).swap := by
  rw [Ordering.swap_then, Int.compare_swap, Nat.compare_swap]

private theorem compare_swap (u v : UnpackedFloat) :
    v.compare u = (u.compare v).map Ordering.swap := by
  cases u with
  | notANumber => cases v <;> rfl
  | infinity s =>
      cases v with
      | infinity t => cases s <;> cases t <;> rfl
      | _ => cases s <;> rfl
  | zero s =>
      cases v with
      | infinity t => cases t <;> rfl
      | finite t => cases t <;> rfl
      | _ => rfl
  | finite s m e =>
      cases v with
      | notANumber => rfl
      | infinity t => cases s <;> cases t <;> rfl
      | zero t => cases s <;> rfl
      | finite t n f =>
          -- Only numbers of the same sign are compared by size, negative ones backwards.
          have hsize := compare_finite_swap e f m n
          cases s <;> cases t
          · exact congrArg (some ·.swap) hsize
          · rfl
          · rfl
          · exact congrArg some hsize

/-- Exchanging the operands exchanges less and greater. -/
theorem compare?_swap (x y : Float) : compare? y x = (compare? x y).map Ordering.swap :=
  compare_swap x.toModel.unpack y.toModel.unpack

private theorem isNone_compare (u v : UnpackedFloat) :
    (u.compare v).isNone = (u.isNaN || v.isNaN) := by
  cases u with
  | notANumber => cases v <;> rfl
  | infinity s => cases s <;> cases v <;> rfl
  | zero s =>
      cases v with
      | infinity t => cases t <;> rfl
      | finite t => cases t <;> rfl
      | _ => rfl
  | finite s =>
      cases v with
      | infinity t => cases t <;> rfl
      | finite t => cases s <;> cases t <;> rfl
      | _ => cases s <;> rfl

theorem compare?_eq_none_iff {x y : Float} :
    compare? x y = none ↔ x.isNaN = true ∨ y.isNaN = true := by
  rw [← Option.isNone_iff_eq_none, ← Bool.or_eq_true_iff]
  exact Bool.eq_iff_iff.mp (isNone_compare x.toModel.unpack y.toModel.unpack)

/-! ## Packing makes no NaN -/

/-- A number is packed with an implicit bit if its mantissa is full.  If its exponent is too large
for a field, it is packed as an infinity. -/
theorem pack_finite (sign : UnpackedFloat.Sign) {m : Nat} {e : Int} (h : 0 < m) :
    UnpackedFloat.pack Format.binary64 (.finite sign m e h) =
      if 2 ^ 11 ≤ (e + (1023 : Nat) + (52 : Nat)).toNat + 1 then
        UnpackedFloat.packedInfinity Format.binary64 sign
      else if m.log2 + 1 = 53 then
        UnpackedFloat.packComponents Format.binary64 sign
          (BitVec.ofNat 11 (e + (1023 : Nat) + (52 : Nat)).toNat) (BitVec.ofNat 52 m)
      else
        UnpackedFloat.packComponents Format.binary64 sign 0#11 (BitVec.ofNat 52 m) := rfl

/-- The exponent tells what is unpacked, and whether the mantissa has an implicit bit. -/
theorem unpack_cases {b : BitVec 64} {e : BitVec 11} {m : BitVec 52} {sign : UnpackedFloat.Sign}
    (he : @UnpackedFloat.unpackExponent Format.binary64 b = e)
    (hm : @UnpackedFloat.unpackMantissa Format.binary64 b = m)
    (hsign : UnpackedFloat.Sign.ofBitVec (@UnpackedFloat.unpackSign Format.binary64 b) = sign) :
    (e = -1#11 ∧ m = 0#52 ∧ UnpackedFloat.unpack Format.binary64 b = .infinity sign) ∨
    (e = -1#11 ∧ m ≠ 0#52 ∧ UnpackedFloat.unpack Format.binary64 b = .notANumber) ∨
    (e = 0#11 ∧ m = 0#52 ∧ UnpackedFloat.unpack Format.binary64 b = .zero sign) ∨
    (e = 0#11 ∧ ∃ h, UnpackedFloat.unpack Format.binary64 b = .finite sign m.toNat (-1074) h) ∨
    (e ≠ -1#11 ∧ e ≠ 0#11 ∧ ∃ h, UnpackedFloat.unpack Format.binary64 b =
      .finite sign (2 ^ 52 + m.toNat) ((e.toNat : Int) - 1075) h) := by
  subst he hm hsign
  by_cases hones : @UnpackedFloat.unpackExponent Format.binary64 b = -1#11
  · by_cases hzero : @UnpackedFloat.unpackMantissa Format.binary64 b = 0#52
    · exact .inl ⟨hones, hzero, (if_pos hones).trans (if_pos hzero)⟩
    · exact .inr (.inl ⟨hones, hzero, (if_pos hones).trans (if_neg hzero)⟩)
  · have hnumber : UnpackedFloat.unpack Format.binary64 b = if _ then _ else _ := if_neg hones
    by_cases hsmall : @UnpackedFloat.unpackExponent Format.binary64 b = 0#11
    · rw [if_pos hsmall] at hnumber
      by_cases hzero : @UnpackedFloat.unpackMantissa Format.binary64 b = 0#52
      · exact .inr (.inr (.inl ⟨hsmall, hzero, hnumber.trans (dif_pos hzero)⟩))
      · have hfinite := hnumber.trans (dif_neg hzero)
        rw [hsmall] at hfinite
        exact .inr (.inr (.inr (.inl ⟨hsmall, _, hfinite⟩)))
    · rw [if_neg hsmall] at hnumber
      have hfull : (1#1 ++ @UnpackedFloat.unpackMantissa Format.binary64 b).toNat =
          2 ^ 52 + (@UnpackedFloat.unpackMantissa Format.binary64 b).toNat := by
        have hlt : (@UnpackedFloat.unpackMantissa Format.binary64 b).toNat < 2 ^ 52 :=
          BitVec.isLt _
        rw [BitVec.toNat_append, Nat.shiftLeft_eq]
        exact (Nat.two_pow_add_eq_or_of_lt hlt 1).symm
      refine .inr (.inr (.inr (.inr ⟨hones, hsmall, by omega, hnumber.trans ?_⟩)))
      rw [UnpackedFloat.finite.injEq]
      exact ⟨rfl, hfull, rfl⟩

private theorem isNaN_unpack_packComponents (sign : UnpackedFloat.Sign) (e : BitVec 11)
    (m : BitVec 52) :
    (UnpackedFloat.unpack Format.binary64
      (UnpackedFloat.packComponents Format.binary64 sign e m)).isNaN =
      (e == -1#11 && m != 0#52) := by
  rcases unpack_cases (b := UnpackedFloat.packComponents Format.binary64 sign e m)
    UnpackedFloat.unpackExponent_packComponents UnpackedFloat.unpackMantissa_packComponents rfl with
    ⟨rfl, rfl, h⟩ | ⟨rfl, hm, h⟩ | ⟨rfl, -, h⟩ | ⟨rfl, _, h⟩ | ⟨he, -, _, h⟩
  · rw [h]
    rfl
  · rw [h]
    exact (bne_iff_ne.mpr hm).symm
  · rw [h]
    rfl
  · rw [h]
    rfl
  · rw [h, beq_eq_false_iff_ne.mpr he]
    rfl

/-- What is packed is a NaN only if it was one before. -/
theorem isNaN_unpack_pack (u : UnpackedFloat) :
    (Float.Model.pack u).unpack.isNaN = u.isNaN := by
  cases u with
  | notANumber => rfl
  | infinity sign => cases sign <;> rfl
  | zero sign => cases sign <;> rfl
  | finite sign m e h =>
      change (UnpackedFloat.unpack _ (UnpackedFloat.pack Format.binary64 _)).isNaN = false
      rw [pack_finite]
      split
      case isTrue =>
        rw [UnpackedFloat.packedInfinity, isNaN_unpack_packComponents]
        rfl
      case isFalse hexponent =>
        split
        · -- The exponent of a normal number stays below the one that NaNs and infinities have.
          rw [isNaN_unpack_packComponents, Bool.and_eq_false_iff, beq_eq_false_iff_ne]
          left
          intro hones
          have hvalue := congrArg BitVec.toNat hones
          rw [BitVec.toNat_ofNat] at hvalue
          change _ % 2 ^ 11 = 2 ^ 11 - 1 at hvalue
          omega
        · rw [isNaN_unpack_packComponents]
          rfl

theorem isNaN_neg (x : Float) : (-x).isNaN = x.isNaN := by
  change (Float.Model.pack x.toModel.unpack.neg).unpack.isNaN = x.toModel.unpack.isNaN
  rw [isNaN_unpack_pack]
  cases x.toModel.unpack <;> rfl

/-! ## The double of an integer -/

private theorem isNaN_roundWithAccuracy (sign : UnpackedFloat.Sign) (m : Nat) (e : Int)
    (accuracy : UnpackedFloat.Accuracy) :
    (UnpackedFloat.roundWithAccuracy Format.binary64 sign m e accuracy).isNaN = false := by
  have hrounded : ∀ (m : Nat) (e : Int),
      (if h : m = 0 then .zero sign
        else .finite sign m e (Nat.pos_of_ne_zero h) : UnpackedFloat).isNaN = false := by
    intro m e
    by_cases h : m = 0
    · rw [dif_pos h]
      rfl
    · rw [dif_neg h]
      rfl
  exact hrounded _ _

private theorem isNaN_ofInt (n : Int) :
    (UnpackedFloat.ofInt Format.binary64 n).isNaN = false := by
  rw [UnpackedFloat.ofInt, UnpackedFloat.normalize]
  split
  · exact isNaN_roundWithAccuracy _ _ _ _
  · rfl
  · exact isNaN_roundWithAccuracy _ _ _ _

private theorem isNaN_mul_finite (u : UnpackedFloat) (sign : UnpackedFloat.Sign) (m : Nat)
    (e : Int) (h : 0 < m) :
    (UnpackedFloat.mul Format.binary64 u (.finite sign m e h)).isNaN = u.isNaN := by
  cases u with
  | finite => exact isNaN_roundWithAccuracy _ _ _ _
  | _ => rfl

private theorem isNaN_ofScientific (n : Nat) :
    (UnpackedFloat.ofScientific Format.binary64 n 0).isNaN = false := by
  rw [UnpackedFloat.ofScientific]
  by_cases hn : n = 0
  · rw [dif_pos hn]
    rfl
  · have hlarge : ¬ (0 : Int) < -(2 ^ 11 + n.log2) := by omega
    rw [dif_neg hn, if_neg (by decide), if_neg hlarge, if_pos (Int.le_refl 0)]
    exact isNaN_mul_finite _ _ _ _ _

/-- A natural number is read as a decimal: a small one is multiplied by the double one, and a large
one goes through exact arithmetic. -/
theorem isNaN_ofNat (n : Nat) : (Float.ofNat n).isNaN = false := by
  change (Float.ofScientific n false 0).isNaN = false
  rw [Float.ofScientific]
  split
  · have hone : Float.exactlyRepresentablePowersOfTen[0].toModel.unpack =
        .finite .positive (2 ^ 52) (-52) (by decide) := rfl
    change (Float.Model.pack (UnpackedFloat.mul Format.binary64
      (Float.Model.pack (UnpackedFloat.ofInt Format.binary64 _)).unpack _)).unpack.isNaN = false
    rw [isNaN_unpack_pack, hone, isNaN_mul_finite, isNaN_unpack_pack, isNaN_ofInt]
  · change (Float.Model.pack (UnpackedFloat.ofScientific _ _ _)).unpack.isNaN = false
    rw [isNaN_unpack_pack]
    exact isNaN_ofScientific n

theorem isNaN_ofInteger (n : Int64) : (ofInteger n).isNaN = false := by
  rw [ofInteger]
  cases n.toInt with
  | ofNat k => exact isNaN_ofNat k
  | negSucc k =>
      change (-Float.ofNat (k + 1)).isNaN = false
      rw [isNaN_neg, isNaN_ofNat]

end ScriptTree.Double
