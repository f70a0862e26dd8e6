import Mathlib.Logic.Basic
import ScriptTree.Proofs.Double

/-!
# Equality of doubles

Two doubles are equal if they stand for the same number.  Apart from the two zeros every number has
one double only, because a double can be told from what is unpacked from it.  So equality is the
identity of doubles, less the NaNs and with the zeros made one.
-/

namespace ScriptTree.Double

open Float.Model (UnpackedFloat Format)

/-- Whether a double is one of the two zeros. -/
def isZero (x : Float) : Bool :=
  match x.toModel.unpack with
  | .zero _ => true
  | _ => false

/-- Two doubles stand for the same number.  A NaN stands for none. -/
def SameNumber (x y : Float) : Prop :=
  x.isNaN = false ∧ (x = y ∨ (isZero x = true ∧ isZero y = true))

theorem isZero_eq_true_iff {x : Float} :
    isZero x = true ↔ ∃ sign, x.toModel.unpack = .zero sign := by
  rw [isZero]
  cases x.toModel.unpack with
  | zero sign => exact iff_of_true rfl ⟨sign, rfl⟩
  | _ => exact iff_of_false Bool.false_ne_true (by rintro ⟨_, ⟨⟩⟩)

theorem isNaN_of_isZero {x : Float} (h : isZero x = true) : x.isNaN = false := by
  obtain ⟨sign, hsign⟩ := isZero_eq_true_iff.mp h
  change x.toModel.unpack.isNaN = false
  rw [hsign]
  rfl

theorem sameNumber_self_iff {x : Float} : SameNumber x x ↔ x.isNaN = false :=
  ⟨fun h => h.1, fun h => ⟨h, Or.inl rfl⟩⟩

theorem SameNumber.symm {x y : Float} (h : SameNumber x y) : SameNumber y x := by
  obtain ⟨hx, rfl | ⟨hzero, hzero'⟩⟩ := h
  · exact ⟨hx, Or.inl rfl⟩
  · exact ⟨isNaN_of_isZero hzero', Or.inr ⟨hzero', hzero⟩⟩

theorem SameNumber.trans {x y z : Float} (h : SameNumber x y) (h' : SameNumber y z) :
    SameNumber x z := by
  obtain ⟨hx, rfl | ⟨hzero, hzero'⟩⟩ := h
  · exact h'
  · obtain ⟨-, rfl | ⟨-, hzero''⟩⟩ := h'
    · exact ⟨hx, Or.inr ⟨hzero, hzero'⟩⟩
    · exact ⟨hx, Or.inr ⟨hzero, hzero''⟩⟩

/-! ## The fields of a double -/

private theorem toNat_unpackMantissa (b : BitVec 64) :
    (@UnpackedFloat.unpackMantissa Format.binary64 b).toNat = b.toNat % 2 ^ 52 := by
  simp [UnpackedFloat.unpackMantissa]

private theorem toNat_unpackExponent (b : BitVec 64) :
    (@UnpackedFloat.unpackExponent Format.binary64 b).toNat =
      b.toNat / 2 ^ 52 % 2 ^ 11 := by
  simp [UnpackedFloat.unpackExponent, Nat.shiftRight_eq_div_pow]

private theorem toNat_unpackSign (b : BitVec 64) :
    (UnpackedFloat.Sign.ofBitVec
      (@UnpackedFloat.unpackSign Format.binary64 b)).toBitVec.toNat =
      b.toNat / 2 ^ 63 := by
  have hsame : ∀ s : BitVec 1, (UnpackedFloat.Sign.ofBitVec s).toBitVec = s := by decide
  have hlt := b.isLt
  rw [hsame]
  unfold UnpackedFloat.unpackSign
  simp [Nat.shiftRight_eq_div_pow]
  omega

/-- The bits that a number is unpacked from.  From `2 ^ 52` on a mantissa has an implicit bit, and
the exponent stands in its field. -/
private def bitsOf : UnpackedFloat → Nat
  | .notANumber => 0
  | .infinity sign => sign.toBitVec.toNat * 2 ^ 63 + 2047 * 2 ^ 52
  | .zero sign => sign.toBitVec.toNat * 2 ^ 63
  | .finite sign m e _ =>
    sign.toBitVec.toNat * 2 ^ 63 +
      if m < 2 ^ 52 then m else (e + 1075).toNat * 2 ^ 52 + (m - 2 ^ 52)

private theorem bitsOf_finite (sign : UnpackedFloat.Sign) {m : Nat} {e : Int} (h : 0 < m) :
    bitsOf (.finite sign m e h) = sign.toBitVec.toNat * 2 ^ 63 +
      if m < 2 ^ 52 then m else (e + 1075).toNat * 2 ^ 52 + (m - 2 ^ 52) := rfl

private theorem bitsOf_unpack (b : BitVec 64)
    (h : (UnpackedFloat.unpack Format.binary64 b).isNaN = false) :
    bitsOf (UnpackedFloat.unpack Format.binary64 b) = b.toNat := by
  obtain ⟨e, he⟩ : ∃ e, @UnpackedFloat.unpackExponent Format.binary64 b = e := ⟨_, rfl⟩
  obtain ⟨m, hm⟩ : ∃ m, @UnpackedFloat.unpackMantissa Format.binary64 b = m := ⟨_, rfl⟩
  have hmantissa := toNat_unpackMantissa b
  have hexponent := toNat_unpackExponent b
  have hsign := toNat_unpackSign b
  rw [hm] at hmantissa
  rw [he] at hexponent
  rcases unpack_cases he hm rfl with
    ⟨rfl, rfl, hb⟩ | ⟨-, -, hb⟩ | ⟨rfl, rfl, hb⟩ | ⟨rfl, _, hb⟩ | ⟨-, -, _, hb⟩
  · change 2047 = _ at hexponent
    change 0 = _ at hmantissa
    rw [hb]
    change _ * 2 ^ 63 + 2047 * 2 ^ 52 = _
    rw [hsign]
    omega
  · rw [hb] at h
    cases h
  · change 0 = _ at hexponent
    change 0 = _ at hmantissa
    rw [hb]
    change _ * 2 ^ 63 = _
    rw [hsign]
    omega
  · change 0 = _ at hexponent
    rw [hb, bitsOf_finite, hsign, if_pos m.isLt, hmantissa]
    omega
  · have hbiased : ((e.toNat : Int) - 1075 + 1075).toNat = e.toNat := by omega
    rw [hb, bitsOf_finite, hsign, if_neg (by omega), hbiased, hmantissa, hexponent]
    omega

/-- Only NaNs cannot be told apart by what is unpacked from them. -/
theorem eq_of_unpack_eq {x y : Float} (hx : x.isNaN = false)
    (h : x.toModel.unpack = y.toModel.unpack) : x = y := by
  obtain ⟨⟨b, hb⟩⟩ := x
  obtain ⟨⟨c, hc⟩⟩ := y
  change UnpackedFloat.unpack _ _ = UnpackedFloat.unpack _ _ at h
  have hy : (UnpackedFloat.unpack Format.binary64 c.toBitVec).isNaN = false := h ▸ hx
  have hbits : b.toBitVec.toNat = c.toBitVec.toNat := by
    rw [← bitsOf_unpack _ hx, ← bitsOf_unpack _ hy, h]
  obtain rfl : b = c := UInt64.toNat_inj.mp hbits
  rfl

/-! ## Equality -/

private theorem compare_finite_eq_iff {e f : Int} {m n : Nat} :
    (compare e f).then (compare m n) = .eq ↔ m = n ∧ e = f := by
  rw [Ordering.then_eq_eq, Int.compare_eq_eq, Nat.compare_eq_eq, and_comm]

private theorem compare_eq_iff (u v : UnpackedFloat) :
    u.compare v = some .eq ↔
      u.isNaN = false ∧ (u = v ∨ ∃ s t, u = .zero s ∧ v = .zero t) := by
  constructor
  · intro h
    cases u with
    | notANumber => cases v <;> cases h
    | infinity s =>
        cases v with
        | infinity t =>
            obtain rfl : s = t := by cases s <;> cases t <;> first | rfl | cases h
            exact ⟨rfl, .inl rfl⟩
        | _ => cases s <;> cases h
    | zero s =>
        cases v with
        | zero t => exact ⟨rfl, .inr ⟨s, t, rfl, rfl⟩⟩
        | infinity t | finite t => cases t <;> cases h
        | notANumber => cases h
    | finite s m e =>
        cases v with
        | finite t n f =>
            -- Only numbers of the same sign are compared by size.
            cases s <;> cases t
            · have hsize := Ordering.swap_eq_eq.mp (Option.some.inj h)
              obtain ⟨rfl, rfl⟩ := compare_finite_eq_iff.mp hsize
              exact ⟨rfl, .inl rfl⟩
            · cases h
            · cases h
            · obtain ⟨rfl, rfl⟩ := compare_finite_eq_iff.mp (Option.some.inj h)
              exact ⟨rfl, .inl rfl⟩
        | infinity t => cases t <;> cases h
        | _ => cases s <;> cases h
  · rintro ⟨hnumber, rfl | ⟨s, t, rfl, rfl⟩⟩
    · cases u with
      | notANumber => cases hnumber
      | infinity s => cases s <;> rfl
      | zero s => rfl
      | finite s m e =>
          have hself := compare_finite_eq_iff.mpr ⟨Eq.refl m, Eq.refl e⟩
          cases s
          · exact congrArg (some ·.swap) hself
          · exact congrArg some hself
    · rfl

theorem beq_iff_sameNumber (x y : Float) : (x == y) = true ↔ SameNumber x y := by
  have hcompare := compare_eq_iff x.toModel.unpack y.toModel.unpack
  rw [beq_eq_compare?, beq_iff_eq, SameNumber, isZero_eq_true_iff, isZero_eq_true_iff]
  refine hcompare.trans (and_congr_right fun hx => or_congr ?_ exists_and_exists_comm.symm)
  exact ⟨eq_of_unpack_eq hx, fun h => h ▸ rfl⟩

end ScriptTree.Double
