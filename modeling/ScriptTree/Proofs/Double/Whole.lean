import ScriptTree.Proofs.Double

/-!
# Doubles of whole numbers

A whole number with a point and a zero behind it has the same double as the number itself, however
large it is.  Small numbers are divided as doubles and large ones as exact fractions, but either way
a multiple of the divisor leaves no remainder, and what is rounded is the number itself.
-/

namespace ScriptTree.Double

open Float.Model (UnpackedFloat Format totalExponent)
open Float.Model.UnpackedFloat (ExtendedMantissa)

/-! ## Rounding -/

private theorem shiftRight_exact (m k j : Nat) :
    ExtendedMantissa.ofMantissaAndAccuracy (m <<< k) .exact >>> (j + k) =
      ExtendedMantissa.ofMantissaAndAccuracy m .exact >>> j := by
  have hback : (k.repeat ExtendedMantissa.shiftRightOne
      (ExtendedMantissa.ofMantissaAndAccuracy (m <<< k) .exact)) =
      ExtendedMantissa.ofMantissaAndAccuracy m .exact := by
    induction k generalizing m with
    | zero => rfl
    | succ k ih =>
        rw [Nat.repeat, Nat.shiftLeft_succ_inside, ih]
        simp [ExtendedMantissa.shiftRightOne, ExtendedMantissa.ofMantissaAndAccuracy]
  induction j with
  | zero =>
      rw [Nat.zero_add]
      exact hback
  | succ j ih =>
      rw [Nat.succ_add]
      exact congrArg ExtendedMantissa.shiftRightOne ih

private theorem log2_shiftLeft {m : Nat} (hm : 0 < m) (k : Nat) :
    (m <<< k).log2 = m.log2 + k := by
  induction k with
  | zero => rfl
  | succ k ih =>
      have hpos : m <<< k ≠ 0 := Nat.ne_of_gt (Nat.shiftLeft_pos_iff.mpr hm)
      rw [Nat.shiftLeft_succ, Nat.log2_two_mul hpos, ih]
      rfl

/-- The exponent of the double that is nearest to a number. -/
private def targetOf (m : Nat) (e : Int) : Int :=
  Format.binary64.targetExponent (totalExponent m e)

private theorem targetOf_shiftLeft {m : Nat} (hm : 0 < m) (e : Int) (k : Nat) :
    targetOf (m <<< k) (e - k) = targetOf m e := by
  have htotal : totalExponent (m <<< k) (e - k) = totalExponent m e := by
    rw [totalExponent, totalExponent, log2_shiftLeft hm]
    omega
  rw [targetOf, htotal, targetOf]

/-- Steps that are no finer than those of the double may be made finer. -/
private theorem roundWithAccuracy_shiftLeft (sign : UnpackedFloat.Sign) {m : Nat} {e : Int}
    (hm : 0 < m) (he : e ≤ targetOf m e) (k : Nat) :
    UnpackedFloat.roundWithAccuracy Format.binary64 sign (m <<< k) (e - k) .exact =
      UnpackedFloat.roundWithAccuracy Format.binary64 sign m e .exact := by
  have hshift : UnpackedFloat.shiftToTargetExponent Format.binary64 (m <<< k) (e - k) .exact =
      UnpackedFloat.shiftToTargetExponent Format.binary64 m e .exact := by
    change UnpackedFloat.shiftToExponent _ _ _ (targetOf (m <<< k) (e - k)) =
      UnpackedFloat.shiftToExponent _ _ _ (targetOf m e)
    have hamount : (targetOf m e - (e - k)).toNat = (targetOf m e - e).toNat + k := by omega
    rw [targetOf_shiftLeft hm, UnpackedFloat.shiftToExponent, UnpackedFloat.shiftToExponent,
      hamount, shiftRight_exact, Prod.mk.injEq]
    exact ⟨rfl, by omega⟩
  rw [UnpackedFloat.roundWithAccuracy, UnpackedFloat.roundWithAccuracy, hshift]

/-- A number is rounded in one way, however fine the steps are that it is counted in. -/
private theorem roundWithAccuracy_eq_round (sign : UnpackedFloat.Sign) {m k : Nat} {e : Int}
    (hm : 0 < m) (hk : e - k ≤ targetOf m e) :
    UnpackedFloat.roundWithAccuracy Format.binary64 sign (m <<< k) (e - k) .exact =
      UnpackedFloat.round Format.binary64 sign m e := by
  obtain ⟨least, hleast⟩ : ∃ least, least = (e - targetOf m e).toNat := ⟨_, rfl⟩
  obtain ⟨more, rfl⟩ : ∃ more, k = least + more := ⟨k - least, by omega⟩
  have hround : UnpackedFloat.round Format.binary64 sign m e =
      UnpackedFloat.roundWithAccuracy Format.binary64 sign (m <<< least) (e - least) .exact := by
    rw [hleast]
    rfl
  have hpos : 0 < m <<< least := Nat.shiftLeft_pos_iff.mpr hm
  rw [hround, Nat.shiftLeft_add, Int.natCast_add, ← Int.sub_sub]
  refine roundWithAccuracy_shiftLeft sign hpos ?_ more
  rw [targetOf_shiftLeft hm]
  omega

/-- A whole number is rounded in one way, if it is counted in steps that are fine enough. -/
private theorem roundWithAccuracy_whole {n k : Nat} (hn : 0 < n) (hk : 52 ≤ n.log2 + k) :
    UnpackedFloat.roundWithAccuracy Format.binary64 .positive (n <<< k) (-k) .exact =
      UnpackedFloat.round Format.binary64 .positive n 0 := by
  rw [← Int.zero_sub]
  refine roundWithAccuracy_eq_round .positive hn ?_
  have htarget : (n.log2 : Int) - 52 ≤ targetOf n 0 := by
    rw [targetOf, Format.targetExponent, totalExponent]
    change _ ≤ max ((n.log2 : Int) + 1 + 0 - 53) _
    omega
  omega

/-! ## Multiplying and dividing -/

/-- A number multiplied by one is rounded only. -/
private theorem mul_eq_round {n i j : Nat} (hn : 0 < n) (h : 52 ≤ n.log2 + (i + j))
    (hm : 0 < n <<< i) (hone : 0 < 1 <<< j) :
    UnpackedFloat.mul Format.binary64 (.finite .positive (n <<< i) (-i) hm)
      (.finite .positive (1 <<< j) (-j) hone) =
      UnpackedFloat.round Format.binary64 .positive n 0 := by
  have hmul : (n <<< i) * (1 <<< j) = n <<< (i + j) := by
    rw [Nat.shiftLeft_eq 1, Nat.one_mul, ← Nat.shiftLeft_eq, Nat.shiftLeft_add]
  have hexponent : -(i : Int) + -(j : Int) = -((i + j : Nat) : Int) := by omega
  have hwhole := roundWithAccuracy_whole hn h
  change UnpackedFloat.roundWithAccuracy Format.binary64 .positive ((n <<< i) * (1 <<< j))
    (-(i : Int) + -(j : Int)) .exact = _
  rw [hmul, hexponent]
  exact hwhole

private theorem log2_mul {a b : Nat} (ha : 0 < a) (hb : 0 < b) :
    a.log2 + b.log2 ≤ (a * b).log2 ∧ (a * b).log2 ≤ a.log2 + b.log2 + 1 := by
  have hab : a * b ≠ 0 := Nat.ne_of_gt (Nat.mul_pos ha hb)
  have hlow := Nat.mul_le_mul (Nat.log2_self_le (Nat.ne_of_gt ha))
    (Nat.log2_self_le (Nat.ne_of_gt hb))
  have hhigh := Nat.mul_lt_mul'' (@Nat.lt_log2_self a) (@Nat.lt_log2_self b)
  rw [← Nat.pow_add] at hlow hhigh
  constructor
  · exact (Nat.le_log2 hab).mpr hlow
  · refine Nat.le_of_lt_succ ((Nat.log2_lt hab).mpr ?_)
    refine Nat.lt_of_lt_of_eq hhigh (congrArg _ ?_)
    omega

/-- Where the numbers are counted in steps, the quotient of a multiple and its divisor is the factor
in steps of its own, and nothing remains. -/
private theorem divCore_mul {n b i j : Nat} (hn : 0 < n) (hb : 0 < b)
    (h : n.log2 ≤ 52 ∨ j ≤ i) :
    ∃ k : Nat, 52 ≤ n.log2 + k ∧
      UnpackedFloat.divCore Format.binary64 ((n * b) <<< i) (-i) (b <<< j) (-j) =
        (n <<< k, -(k : Int), .exact) := by
  have hlog := log2_mul hn hb
  have htotal : totalExponent ((n * b) <<< i) (-i) - totalExponent (b <<< j) (-j) =
      (n * b).log2 - b.log2 := by
    rw [totalExponent, totalExponent, log2_shiftLeft (Nat.mul_pos hn hb), log2_shiftLeft hb]
    omega
  have htarget : Format.binary64.targetExponent ((n * b).log2 - b.log2) =
      ((n * b).log2 : Int) - b.log2 - 53 := by
    rw [Format.targetExponent]
    change max (_ - 53) (-1074 : Int) = _
    omega
  obtain ⟨t, ht⟩ : ∃ t : Int, t = min (-(i : Int) - -(j : Int)) ((n * b).log2 - b.log2 - 53) :=
    ⟨_, rfl⟩
  obtain ⟨k, rfl⟩ : ∃ k : Nat, t = -k := ⟨(-t).toNat, by omega⟩
  refine ⟨k, by omega, ?_⟩
  have hshift : i + (-(i : Int) - -(j : Int) - -(k : Int)).toNat = k + j := by omega
  have hmul : ((n * b) <<< i) <<< (-(i : Int) - -(j : Int) - -(k : Int)).toNat =
      (n <<< k) * (b <<< j) := by
    rw [← Nat.shiftLeft_add, hshift, Nat.shiftLeft_eq, Nat.shiftLeft_eq, Nat.shiftLeft_eq,
      Nat.pow_add]
    exact Nat.mul_mul_mul_comm n b (2 ^ k) (2 ^ j)
  have hpos : 0 < b <<< j := Nat.shiftLeft_pos_iff.mpr hb
  rw [UnpackedFloat.divCore, htotal, htarget, ← ht, hmul, Nat.mul_div_cancel _ hpos,
    Nat.mul_mod_left]
  rfl

/-- The quotient of a multiple and its divisor is the factor, rounded. -/
private theorem div_eq_round {n b i j : Nat} (hn : 0 < n) (hb : 0 < b) (h : n.log2 ≤ 52 ∨ j ≤ i)
    (hm : 0 < (n * b) <<< i) (hb' : 0 < b <<< j) :
    UnpackedFloat.div Format.binary64 (.finite .positive ((n * b) <<< i) (-i) hm)
      (.finite .positive (b <<< j) (-j) hb') =
      UnpackedFloat.round Format.binary64 .positive n 0 := by
  obtain ⟨k, hk, hcore⟩ := divCore_mul hn hb h
  have hwhole := roundWithAccuracy_whole hn hk
  change UnpackedFloat.roundWithAccuracy Format.binary64 .positive
    (UnpackedFloat.divCore Format.binary64 ((n * b) <<< i) (-i) (b <<< j) (-j)).1
    (UnpackedFloat.divCore Format.binary64 ((n * b) <<< i) (-i) (b <<< j) (-j)).2.1
    (UnpackedFloat.divCore Format.binary64 ((n * b) <<< i) (-i) (b <<< j) (-j)).2.2 = _
  rw [hcore]
  exact hwhole

/-! ## Packing -/

private theorem unpackSign_packComponents {spec : Format} {sign : UnpackedFloat.Sign}
    {e : BitVec spec.exponentBits} {m : BitVec spec.mantissaBitsWithoutImplicit} :
    UnpackedFloat.unpackSign (UnpackedFloat.packComponents spec sign e m) = sign.toBitVec := by
  ext i hi
  obtain rfl : i = 0 := by omega
  unfold UnpackedFloat.unpackSign
  simp [UnpackedFloat.packComponents, BitVec.getLsbD_append, BitVec.getElem_append]

/-- What is packed with a full mantissa and an exponent in range is unpacked again. -/
private theorem unpack_pack_normal {m : Nat} {e : Int} (hm : 0 < m) (hlog : m.log2 = 52)
    (hlow : -1075 < e) (hhigh : e < 972) :
    (Float.Model.pack (.finite .positive m e hm)).unpack = .finite .positive m e hm := by
  obtain ⟨b, hb⟩ : ∃ b : Nat, (b : Int) = e + 1075 := ⟨(e + 1075).toNat, by omega⟩
  have hbiased : (e + (1023 : Nat) + (52 : Nat)).toNat = b := by omega
  have hpack : UnpackedFloat.pack Format.binary64 (.finite .positive m e hm) =
      UnpackedFloat.packComponents Format.binary64 .positive (BitVec.ofNat 11 b)
        (BitVec.ofNat 52 m) := by
    rw [pack_finite, hbiased, if_neg (by omega), if_pos (by omega)]
  have hfield : (BitVec.ofNat 11 b).toNat = b := by
    rw [BitVec.toNat_ofNat]
    omega
  have hmantissa : 2 ^ 52 + (BitVec.ofNat 52 m).toNat = m := by
    have hbounds := (Nat.log2_eq_iff (Nat.ne_of_gt hm)).mp hlog
    rw [BitVec.toNat_ofNat]
    omega
  have hsign : UnpackedFloat.Sign.ofBitVec (UnpackedFloat.unpackSign
      (UnpackedFloat.packComponents Format.binary64 .positive (BitVec.ofNat 11 b)
        (BitVec.ofNat 52 m))) = .positive := by
    rw [unpackSign_packComponents]
    rfl
  change UnpackedFloat.unpack Format.binary64 (UnpackedFloat.pack Format.binary64 _) = _
  rw [hpack]
  rcases unpack_cases UnpackedFloat.unpackExponent_packComponents
    UnpackedFloat.unpackMantissa_packComponents hsign with
    ⟨hones, -⟩ | ⟨hones, -⟩ | ⟨hzero, -⟩ | ⟨hzero, -⟩ | ⟨-, -, _, hunpack⟩
  · rw [hones] at hfield
    change 2047 = b at hfield
    omega
  · rw [hones] at hfield
    change 2047 = b at hfield
    omega
  · rw [hzero] at hfield
    change 0 = b at hfield
    omega
  · rw [hzero] at hfield
    change 0 = b at hfield
    omega
  · rw [hunpack, UnpackedFloat.finite.injEq, hfield]
    exact ⟨rfl, hmantissa, by omega⟩

/-! ## Small numbers -/

/-- What is counted in the right steps already is not rounded. -/
private theorem roundWithAccuracy_self {m : Nat} {e : Int} (hm : 0 < m) (he : targetOf m e = e) :
    UnpackedFloat.roundWithAccuracy Format.binary64 .positive m e .exact =
      .finite .positive m e hm := by
  have hshift : UnpackedFloat.shiftToTargetExponent Format.binary64 m e .exact =
      (ExtendedMantissa.ofMantissaAndAccuracy m .exact, e) := by
    change UnpackedFloat.shiftToExponent m e .exact (targetOf m e) = _
    rw [he, UnpackedFloat.shiftToExponent, Int.sub_self, Int.toNat_zero, Int.natCast_zero,
      Int.add_zero]
    rfl
  have hexact : (ExtendedMantissa.ofMantissaAndAccuracy m .exact).roundedMantissa = m := rfl
  rw [UnpackedFloat.roundWithAccuracy, hshift]
  dsimp only
  rw [hexact, hshift]
  exact dif_neg (Nat.ne_of_gt hm)

private theorem ofNat_model {n : Nat} (hn : 0 < n) :
    Float.Model.ofNat n =
      Float.Model.pack (UnpackedFloat.round Format.binary64 .positive n 0) := by
  have hcompare : compare (n : Int) 0 = .gt := Int.compare_eq_gt.mpr (by omega)
  rw [Float.Model.ofNat, UnpackedFloat.ofNat, UnpackedFloat.ofInt, UnpackedFloat.normalize,
    hcompare]
  rfl

/-- A small number is held exactly, and its double is unpacked again. -/
private theorem unpack_ofNat {n : Nat} (hn : 0 < n) (h : n < 2 ^ 53) :
    ∃ k : Nat, ∃ hpos, k + n.log2 = 52 ∧
      (Float.Model.ofNat n).unpack = .finite .positive (n <<< k) (-(k : Int)) hpos := by
  have hlog : n.log2 < 53 := (Nat.log2_lt (Nat.ne_of_gt hn)).mpr h
  obtain ⟨k, hk⟩ : ∃ k, k + n.log2 = 52 := ⟨52 - n.log2, by omega⟩
  have hpos : 0 < n <<< k := Nat.shiftLeft_pos_iff.mpr hn
  refine ⟨k, hpos, hk, ?_⟩
  have htarget : targetOf (n <<< k) (-(k : Int)) = -k := by
    rw [← Int.zero_sub, targetOf_shiftLeft hn, targetOf, Format.targetExponent, totalExponent]
    change max ((n.log2 : Int) + 1 + 0 - 53) (-1074) = _
    omega
  have hmodel : Float.Model.ofNat n = Float.Model.pack (.finite .positive (n <<< k) (-k) hpos) := by
    rw [← roundWithAccuracy_self hpos htarget, roundWithAccuracy_whole hn (by omega),
      ofNat_model hn]
  rw [hmodel]
  refine unpack_pack_normal hpos ?_ (by omega) (by omega)
  rw [log2_shiftLeft hn]
  omega

/-! ## Reading -/

/-- A power of ten that is read from its bits. -/
private theorem unpack_one : Float.exactlyRepresentablePowersOfTen[0].toModel.unpack =
    .finite .positive (1 <<< 52) (-(52 : Nat)) (by decide) := rfl

private theorem unpack_ten : Float.exactlyRepresentablePowersOfTen[1].toModel.unpack =
    .finite .positive (10 <<< 49) (-(49 : Nat)) (by decide) := rfl

private theorem toFloat_toUInt64 {n : Nat} (h : n < 2 ^ 53) :
    n.toUInt64.toFloat = .ofModel (Float.Model.ofNat n) := by
  have htoNat : n.toUInt64.toNat = n := by
    rw [UInt64.toNat_ofNat']
    omega
  change Float.ofModel (Float.Model.ofNat n.toUInt64.toNat) = _
  rw [htoNat]

/-- A natural number is read as the double nearest to it. -/
theorem ofNat_eq {n : Nat} (hn : 0 < n) :
    Float.ofNat n =
      .ofModel (.pack (UnpackedFloat.round Format.binary64 .positive n 0)) := by
  change Float.ofScientific n false 0 = _
  rw [Float.ofScientific]
  split
  case isTrue h =>
    obtain ⟨k, hpos, hk, hunpack⟩ := unpack_ofNat hn h.1
    rw [toFloat_toUInt64 h.1]
    change Float.ofModel (.pack (UnpackedFloat.mul Format.binary64 (Float.Model.ofNat n).unpack
      Float.exactlyRepresentablePowersOfTen[0].toModel.unpack)) = _
    rw [hunpack, unpack_one, mul_eq_round hn (by omega)]
  case isFalse =>
    have hpos : 0 < n <<< 53 := Nat.shiftLeft_pos_iff.mpr hn
    have hmul := mul_eq_round hn (by omega : 52 ≤ n.log2 + (53 + 0)) hpos (by decide)
    have hlarge : ¬ (0 : Int) < -(2 ^ 11 + n.log2) := by omega
    change Float.ofModel (.pack (UnpackedFloat.ofScientific Format.binary64 n 0)) = _
    rw [UnpackedFloat.ofScientific, dif_neg (Nat.ne_of_gt hn), if_neg (by decide), if_neg hlarge,
      if_pos (Int.le_refl 0), ← hmul]
    rfl

/-- A natural number with a point and a zero behind it is read as the number itself. -/
theorem ofScientific_tenfold (n : Nat) : Float.ofScientific (10 * n) true 1 = Float.ofNat n := by
  rcases Nat.eq_zero_or_pos n with rfl | hn
  · rfl
  have hten : 0 < n * 10 := by omega
  rw [ofNat_eq hn, Nat.mul_comm, Float.ofScientific]
  split
  case isTrue h =>
    obtain ⟨k, hpos, hk, hunpack⟩ := unpack_ofNat hten h.1
    have hsmall : n.log2 ≤ 52 := Nat.le_of_lt_succ ((Nat.log2_lt (Nat.ne_of_gt hn)).mpr (by omega))
    rw [toFloat_toUInt64 h.1]
    change Float.ofModel (.pack (UnpackedFloat.div Format.binary64 (Float.Model.ofNat _).unpack
      Float.exactlyRepresentablePowersOfTen[1].toModel.unpack)) = _
    rw [hunpack, unpack_ten, div_eq_round hn (by decide) (.inl hsmall)]
  case isFalse =>
    have hdiv := div_eq_round hn (by decide : 0 < 10) (.inr (Nat.le_refl 0)) hten (by decide)
    have hlarge : ¬ (-1 : Int) < -(2 ^ 11 + (n * 10).log2) := by omega
    change Float.ofModel (.pack (UnpackedFloat.ofScientific Format.binary64 (n * 10) (-1))) = _
    rw [UnpackedFloat.ofScientific, dif_neg (Nat.ne_of_gt hten), if_neg (by decide), if_neg hlarge,
      if_neg (by decide), ← hdiv]
    rfl

end ScriptTree.Double
