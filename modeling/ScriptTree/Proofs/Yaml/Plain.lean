import Mathlib.Algebra.Group.Int.Defs
import ScriptTree.Proofs.Double.Whole
import ScriptTree.Proofs.Yaml.Numerals

/-!
# What plain scalars mean

A plain scalar is told by its looks.  The words for truth values and for nothing come first, then
the integers, then the other numbers.  So a decimal integer of 64 bits is an integer whatever its
sign, and one more digit behind a point makes it a double.
-/

namespace ScriptTree.Yaml

theorem Numeral.double_of_minus {z : Numeral} (h : z.sign = .minus) :
    z.double = -Float.ofNat z.magnitude := by
  rw [double, value, h]
  cases z.magnitude with
  | zero => exact if_pos ⟨rfl, rfl⟩
  | succ n => exact if_neg fun h => Nat.succ_ne_zero n h.2

theorem Numeral.double_of_ne_minus {z : Numeral} (h : z.sign ≠ .minus) :
    z.double = Float.ofNat z.magnitude := by
  rw [double, if_neg (fun hminus => h hminus.1), value]
  cases hsign : z.sign with
  | minus => exact absurd hsign h
  | _ => rfl

/-- A number of 64 bits is far from having too many digits for a double. -/
theorem Numeral.digitCount_le {z : Numeral} (hlow : -2 ^ 63 ≤ z.value) (hhigh : z.value < 2 ^ 64) :
    digitCount z.magnitude ≤ 308 := by
  have hlt : z.magnitude < 10 ^ 20 := by
    rw [value] at hlow hhigh
    cases hsign : z.sign <;> simp only [hsign] at hlow hhigh <;> omega
  exact Nat.le_trans ((Nat.length_toDigits_le_iff (by decide) (by decide)).mpr hlt) (by decide)

namespace Scalar

/-! ## Looks -/

/-- An integer is held in 64 bits, or else it is wide. -/
theorem ofInteger?_eq_some {n : Int} {s : Scalar} (h : ofInteger? n = some s) :
    (s = .integer n ∧ -2 ^ 63 ≤ n ∧ n < 2 ^ 64) ∨ s = .wide n := by
  rw [ofInteger?] at h
  split at h
  case isTrue hfits => exact .inl ⟨(Option.some.inj h).symm, hfits⟩
  case isFalse =>
    obtain ⟨-, hwide⟩ := Option.ite_none_right_eq_some.mp h
    exact .inr (Option.some.inj hwide).symm

/-- What a plain scalar is told by. -/
inductive Looks (text : String) : Scalar → Prop where
  | null (h : text.isEmpty = true ∨ isNull text = true) : Looks text .null
  | boolean {b : Bool} (h : boolean? text = some b) : Looks text (.boolean b)
  | integer {n : Int} (h : integer? text.toList = some n) (hlow : -2 ^ 63 ≤ n)
      (hhigh : n < 2 ^ 64) :
      Looks text (.integer n)
  | wide {n : Int} (h : integer? text.toList = some n) : Looks text (.wide n)
  | floating {x : Float} (h : floating? text.toList = some x) : Looks text (.floating x)
  | text : Looks text (.text text)

theorem looks_ofPlain (text : String) : Looks text (ofPlain text) := by
  rw [ofPlain]
  split
  case isTrue h => exact .null (Bool.or_eq_true_iff.mp h)
  case isFalse =>
    cases hboolean : boolean? text with
    | some b => exact .boolean hboolean
    | none =>
        cases hinteger : (integer? text.toList).bind ofInteger? with
        | some s =>
            obtain ⟨n, hn, hs⟩ := Option.bind_eq_some_iff.mp hinteger
            rcases ofInteger?_eq_some hs with ⟨rfl, hlow, hhigh⟩ | rfl
            · exact .integer hn hlow hhigh
            · exact .wide hn
        | none =>
            rw [Option.map_none, Option.getD_none, Option.orElse_none]
            split
            case isTrue => exact .text
            case isFalse =>
              cases hfloating : floating? text.toList with
              | none => exact .text
              | some x => exact .floating hfloating

/-! ## Words -/

/-- Only what is empty or a word for it means nothing. -/
theorem ofPlain_eq_null_iff {text : String} :
    ofPlain text = .null ↔ text.isEmpty = true ∨ isNull text = true := by
  constructor
  · intro h
    have hlooks := looks_ofPlain text
    rw [h] at hlooks
    cases hlooks with
    | null h => exact h
  · intro h
    rw [ofPlain, if_pos (Bool.or_eq_true_iff.mpr h)]

theorem ofPlain_of_boolean? {text : String} {b : Bool} (h : boolean? text = some b) :
    ofPlain text = .boolean b := by
  have hwords : ∀ word ∈ ["true", "True", "TRUE"] ++ ["false", "False", "FALSE"],
      (word.isEmpty || isNull word) = false := by decide
  have hmem : text ∈ ["true", "True", "TRUE"] ++ ["false", "False", "FALSE"] := by
    rw [boolean?] at h
    split at h
    case isTrue htrue => exact List.mem_append_left _ (List.contains_iff_mem.mp htrue)
    case isFalse =>
      split at h
      case isTrue hfalse => exact List.mem_append_right _ (List.contains_iff_mem.mp hfalse)
      case isFalse => cases h
  rw [ofPlain, hwords text hmem, h]
  rfl

theorem ofPlain_eq_boolean_iff {text : String} {b : Bool} :
    ofPlain text = .boolean b ↔ boolean? text = some b := by
  constructor
  · intro h
    have hlooks := looks_ofPlain text
    rw [h] at hlooks
    cases hlooks with
    | boolean h => exact h
  · exact ofPlain_of_boolean?

/-- Whether a text starts as a number does, with a digit or a sign. -/
def startsNumber : List Char → Bool
  | c :: _ => c.isDigit || c == '+' || c == '-'
  | [] => false

/-- What starts as a number does is none of the words. -/
theorem ofPlain_of_startsNumber {text : String} (h : startsNumber text.toList = true) :
    ofPlain text =
      (((integer? text.toList).bind ofInteger?).orElse fun _ =>
        if isCode text.toList then none else (floating? text.toList).map .floating).getD
          (.text text) := by
  have hword : ∀ words : List String, (∀ word ∈ words, startsNumber word.toList = false) →
      words.contains text = false := by
    intro words hwords
    rw [← Bool.not_eq_true, List.contains_iff_mem]
    intro hmem
    rw [hwords text hmem] at h
    cases h
  have hempty : text.isEmpty = false := by
    rw [← Bool.not_eq_true]
    rintro hempty
    rw [String.isEmpty_iff.mp hempty] at h
    cases h
  have hnull : isNull text = false := hword _ (by decide)
  have hboolean : boolean? text = none := by
    rw [boolean?, hword _ (by decide), hword _ (by decide)]
    rfl
  rw [ofPlain, hempty, hnull, hboolean]
  rfl

/-! ## Integers -/

theorem startsNumber_numeral (z : Numeral) (rest : List Char) :
    startsNumber (z.sign.text ++ z.digits ++ rest) = true := by
  obtain ⟨sign, digits, hdigits, hne⟩ := z
  obtain ⟨c, cs, rfl⟩ := List.exists_cons_of_ne_nil hne
  have hc := hdigits c List.mem_cons_self
  cases sign <;> simp [Sign.text, startsNumber, hc]

/-- A decimal integer without needless zeros is read as the integer it stands for. -/
theorem integer?_numeral (z : Numeral) :
    integer? z.text.toList = if hasLeadingZero z.digits then none else some z.value := by
  obtain ⟨sign, digits, hdigits, hne⟩ := z
  have hmagnitude := magnitude?_eq hdigits hne
  rw [Numeral.text, String.toList_ofList]
  cases sign with
  | missing =>
      rw [Sign.text, List.nil_append, integer?_of_isDigit hdigits, hmagnitude]
      cases hasLeadingZero digits <;> rfl
  | plus =>
      change (magnitude? digits).map Int.ofNat = _
      rw [hmagnitude]
      cases hasLeadingZero digits <;> rfl
  | minus =>
      change (magnitude? digits).map (fun n => -(n : Int)) = _
      rw [hmagnitude]
      cases hasLeadingZero digits <;> rfl

theorem isDigit_of_digit? {c : Char} {n : Nat} (h : digit? 10 c = some n) : c.isDigit = true := by
  obtain ⟨hvalue, hlt⟩ := Option.filter_eq_some_iff.mp h
  have hlt : n < 10 := of_decide_eq_true hlt
  rw [hexValue?] at hvalue
  split at hvalue
  case isTrue hdigit => exact hdigit
  case isFalse =>
    -- The letters are the digits from ten on.
    split at hvalue
    case isTrue hletter =>
      have hle : 97 ≤ c.toNat := UInt32.le_iff_toNat_le.mp hletter.1
      have hn := Option.some.inj hvalue
      omega
    case isFalse =>
      obtain ⟨hletter, hn⟩ := Option.ite_none_right_eq_some.mp hvalue
      have hle : 65 ≤ c.toNat := UInt32.le_iff_toNat_le.mp hletter.1
      have hn := Option.some.inj hn
      omega

theorem startsNumber_of_natural? {digits : List Char} {n : Nat} (h : natural? 10 digits = some n) :
    startsNumber digits = true := by
  cases digits with
  | nil => cases h
  | cons c digits =>
      obtain ⟨m, hm, -⟩ := Option.bind_eq_some_iff.mp h
      obtain ⟨value, hvalue, -⟩ := Option.map_eq_some_iff.mp hm
      rw [startsNumber, isDigit_of_digit? hvalue]
      rfl

/-- Every integer starts with a sign or a digit, whatever its base. -/
theorem startsNumber_of_integer? {text : List Char} {n : Int} (h : integer? text = some n) :
    startsNumber text = true := by
  rw [integer?.eq_def] at h
  split at h
  case h_1 => rfl
  case h_2 => rfl
  case h_3 =>
    obtain ⟨m, hm, -⟩ := Option.map_eq_some_iff.mp h
    rw [magnitude?.eq_def] at hm
    split at hm
    case h_1 => rfl
    case h_2 => rfl
    case h_3 => rfl
    case h_4 => exact startsNumber_of_natural? (Option.ite_none_left_eq_some.mp hm).2

/-- What has no minus is not negative. -/
theorem nonneg_of_integer? {text : List Char} {n : Int} (h : integer? text = some n)
    (hhead : text.head? ≠ some '-') : 0 ≤ n := by
  rw [integer?.eq_def] at h
  split at h
  case h_1 => exact absurd rfl hhead
  all_goals
    obtain ⟨m, -, rfl⟩ := Option.map_eq_some_iff.mp h
    exact Int.natCast_nonneg m

/-- A plain scalar is an integer of 64 bits exactly if it is read as one. -/
theorem ofPlain_eq_integer_iff {text : String} {n : Int} :
    ofPlain text = .integer n ↔ integer? text.toList = some n ∧ -2 ^ 63 ≤ n ∧ n < 2 ^ 64 := by
  constructor
  · intro h
    have hlooks := looks_ofPlain text
    rw [h] at hlooks
    cases hlooks with
    | integer h hlow hhigh => exact ⟨h, hlow, hhigh⟩
  · rintro ⟨hinteger, hfits⟩
    have hscalar : ofInteger? n = some (.integer n) := if_pos hfits
    rw [ofPlain_of_startsNumber (startsNumber_of_integer? hinteger), hinteger, Option.bind_some,
      hscalar]
    rfl

/-- An integer of 64 bits, with or without a sign, is told from all other scalars. -/
theorem ofPlain_numeral {z : Numeral} (h : hasLeadingZero z.digits = false)
    (hlow : -2 ^ 63 ≤ z.value) (hhigh : z.value < 2 ^ 64) :
    ofPlain z.text = .integer z.value := by
  refine ofPlain_eq_integer_iff.mpr ⟨?_, hlow, hhigh⟩
  rw [integer?_numeral, h, if_neg Bool.false_ne_true]

/-- Decimal digits are no other integer than the one that they stand for. -/
theorem value_of_ofPlain {z : Numeral} {n : Int} (h : ofPlain z.text = .integer n) :
    n = z.value := by
  obtain ⟨hinteger, -⟩ := ofPlain_eq_integer_iff.mp h
  rw [integer?_numeral] at hinteger
  obtain ⟨-, hvalue⟩ := Option.ite_none_left_eq_some.mp hinteger
  exact (Option.some.inj hvalue).symm

/-- A number without a sign of 64 bits is an integer that has no minus. -/
theorem unsigned?_eq_some_iff {text : String} {n : UInt64} :
    unsigned? text.toList = some n ↔
      text.toList.head? ≠ some '-' ∧ ofPlain text = .integer n.toNat := by
  rw [unsigned?, ofPlain_eq_integer_iff, Option.ite_none_left_eq_some, beq_iff_eq,
    Option.bind_eq_some_iff]
  refine and_congr_right fun hhead => ?_
  constructor
  · rintro ⟨m, hm, hn⟩
    obtain ⟨hlt, hn⟩ := Option.ite_none_right_eq_some.mp hn
    obtain rfl := Option.some.inj hn
    have hnonneg := nonneg_of_integer? hm hhead
    have hlt : m < 2 ^ 64 := hlt
    have htoNat : ((UInt64.ofNat m.toNat).toNat : Int) = m := by
      rw [UInt64.toNat_ofNat_of_lt' (by change m.toNat < 2 ^ 64; omega),
        Int.toNat_of_nonneg hnonneg]
    rw [htoNat]
    exact ⟨hm, by omega, hlt⟩
  · rintro ⟨hinteger, -, hlt⟩
    refine ⟨n.toNat, hinteger, ?_⟩
    have hfits : (n.toNat : Int) < Int.pow 2 64 := hlt
    rw [if_pos hfits, Int.toNat_natCast, UInt64.ofNat_toNat]

/-! ## Integers with a point -/

section Pointed

variable {digits : List Char} (hdigits : ∀ c ∈ digits, c.isDigit = true) (hne : digits ≠ [])

/-- A point is no digit. -/
theorem natural?_pointed (digits rest : List Char) :
    natural? 10 (digits ++ '.' :: rest) = none := by
  have hempty : (digits ++ '.' :: rest).isEmpty = false := by simp
  rw [natural?, hempty, if_neg Bool.false_ne_true, List.foldlM_append]
  cases digits.foldlM (fun n c => (digit? 10 c).map (10 * n + ·)) 0 <;> rfl

theorem hasLeadingZero_pointed (digits rest : List Char) :
    hasLeadingZero (digits ++ '.' :: rest) = false := by
  rw [← Bool.not_eq_true]
  intro h
  have hpoint : '.' ∈ digits ++ '.' :: rest := List.mem_append_right _ List.mem_cons_self
  rw [hasLeadingZero.eq_def] at h
  split at h
  case h_1 c rest' heq =>
    rw [heq] at hpoint
    rcases List.mem_cons.mp hpoint with hzero | hmem
    · cases hzero
    · exact absurd (List.all_eq_true.mp h '.' hmem) (by decide)
  case h_2 => cases h

include hdigits hne in
theorem magnitude?_pointed (rest : List Char) : magnitude? (digits ++ '.' :: rest) = none := by
  have hsecond : ∀ {c d : Char} {rest' : List Char}, digits ++ '.' :: rest = c :: d :: rest' →
      d.isDigit = true ∨ d = '.' := by
    intro c d rest' heq
    match digits, hne with
    | [_], _ =>
        cases heq
        exact .inr rfl
    | _ :: _ :: _, _ =>
        cases heq
        exact .inl (hdigits d (List.mem_cons_of_mem _ List.mem_cons_self))
  rw [magnitude?]
  · rw [natural?_pointed, ite_self]
  · intro rest' heq
    exact absurd (hsecond heq) (by decide)
  · intro rest' heq
    exact absurd (hsecond heq) (by decide)
  · intro rest' heq
    exact absurd (hsecond heq) (by decide)

include hdigits in
theorem decimal?_pointed :
    decimal? (digits ++ ['.', '0']) = some ⟨10 * Nat.ofDigitChars 10 digits 0, -1⟩ := by
  have hwhole : (digits ++ ['.', '0']).takeWhile Char.isDigit = digits := by
    rw [List.takeWhile_append_of_pos hdigits]
    exact List.append_nil digits
  have hnatural : natural? 10 (digits ++ ['0']) =
      some (10 * Nat.ofDigitChars 10 digits 0) := by
    rw [natural?_eq, Nat.ofDigitChars_append, Nat.ofDigitChars_cons]
    · rfl
    · exact List.forall_mem_append.mpr ⟨hdigits, List.forall_mem_singleton.mpr rfl⟩
    · simp
  rw [decimal?, hwhole, List.drop_left]
  dsimp only
  change (natural? 10 (digits ++ ['0']) >>= _) = _
  rw [hnatural]
  rfl

/-- A number that is not too long has a digit more with a zero behind it. -/
theorem nearest?_of_digitCount {n : Nat} (h : digitCount n ≤ 308) :
    nearest? ⟨10 * n, -1⟩ = some (.ofScientific (10 * n) true 1) := by
  have hlt : n < 10 ^ digitCount n :=
    (Nat.length_toDigits_le_iff (by decide) Nat.length_toDigits_pos).mp (Nat.le_refl _)
  have hcount : digitCount (10 * n) ≤ digitCount n + 1 := by
    refine (Nat.length_toDigits_le_iff (by decide) (Nat.succ_pos _)).mpr ?_
    rw [Nat.pow_succ']
    exact Nat.mul_lt_mul_of_pos_left hlt (by decide)
  have hlead : (-1 : Int) + digitCount (10 * n) < 309 := by omega
  have hbounded : isBounded ⟨10 * n, -1⟩ = true := by
    rw [isBounded]
    simp [hlead]
  rw [nearest?, if_pos hbounded]
  rfl

include hdigits hne in
theorem head?_ne_of_isDigit {c : Char} (hc : c.isDigit = false) (rest : List Char) :
    (digits ++ rest).head? ≠ some c := by
  obtain ⟨first, more, rfl⟩ := List.exists_cons_of_ne_nil hne
  rw [List.cons_append, List.head?_cons, Ne, Option.some.injEq]
  rintro rfl
  rw [hdigits first List.mem_cons_self] at hc
  cases hc

/-- What starts with something else than a point is no word behind a point. -/
theorem isPointed_eq_false {text : List Char} (h : text.head? ≠ some '.') (words : List String) :
    isPointed words text = false := by
  rw [isPointed, List.any_eq_false]
  intro word _ heq
  rw [beq_iff_eq.mp heq] at h
  exact h rfl

include hdigits hne in
theorem unsignedFloating?_pointed (h : digitCount (Nat.ofDigitChars 10 digits 0) ≤ 308) :
    unsignedFloating? (digits ++ ['.', '0']) =
      some (Float.ofNat (Nat.ofDigitChars 10 digits 0)) := by
  have hhead := head?_ne_of_isDigit hdigits hne (by decide : ('.' : Char).isDigit = false)
  rw [unsignedFloating?, isPointed_eq_false (hhead _), if_neg Bool.false_ne_true,
    decimal?_pointed hdigits, Option.bind_some, nearest?_of_digitCount h,
    Double.ofScientific_tenfold]

end Pointed

/-- A sign is passed over, and nothing else in front of digits is taken for one. -/
theorem signed_pointed {z : Numeral} (h : digitCount z.magnitude ≤ 308) :
    integer? (z.sign.text ++ z.digits ++ ['.', '0']) = none ∧
      isCode (z.sign.text ++ z.digits ++ ['.', '0']) = false ∧
      floating? (z.sign.text ++ z.digits ++ ['.', '0']) = some z.double := by
  obtain ⟨sign, digits, hdigits, hne⟩ := z
  have hinteger := magnitude?_pointed hdigits hne ['0']
  have hcode := hasLeadingZero_pointed digits ['0']
  have hfloating := unsignedFloating?_pointed hdigits hne h
  cases sign with
  | plus =>
      change (magnitude? (digits ++ _)).map _ = none ∧ hasLeadingZero (digits ++ _) = false ∧
        unsignedFloating? (digits ++ _) = _
      rw [hinteger, hcode, hfloating, Numeral.double_of_ne_minus (by decide : Sign.plus ≠ .minus)]
      exact ⟨rfl, rfl, rfl⟩
  | minus =>
      change (magnitude? (digits ++ _)).map (fun n => -(n : Int)) = none ∧
        hasLeadingZero (digits ++ _) = false ∧
        (unsignedFloating? (digits ++ _)).map (fun x => -x) = _
      rw [hinteger, hcode, hfloating, Numeral.double_of_minus rfl]
      exact ⟨rfl, rfl, rfl⟩
  | missing =>
      have hhead : ∀ {c : Char}, c.isDigit = false → ∀ rest, digits ++ ['.', '0'] ≠ c :: rest := by
        intro c hc rest heq
        have hne' := head?_ne_of_isDigit hdigits hne hc ['.', '0']
        rw [heq] at hne'
        exact hne' rfl
      have hplus := hhead (by decide : ('+' : Char).isDigit = false)
      have hminus := hhead (by decide : ('-' : Char).isDigit = false)
      have hpoint := head?_ne_of_isDigit hdigits hne (by decide : ('.' : Char).isDigit = false)
      change integer? (digits ++ _) = none ∧ isCode (digits ++ _) = false ∧
        floating? (digits ++ _) = _
      rw [integer?.eq_3 _ hminus hplus, isCode.eq_3 _ hminus hplus, floating?.eq_3 _ hplus hminus,
        hinteger, hcode, isPointed_eq_false (hpoint _), hfloating,
        Numeral.double_of_ne_minus (by decide : Sign.missing ≠ .minus)]
      exact ⟨rfl, rfl, rfl⟩

/-- A decimal integer with a point and a zero behind it is a double, and not the integer. -/
theorem ofPlain_pointed {z : Numeral} (h : digitCount z.magnitude ≤ 308) :
    ofPlain (z.text ++ ".0") = .floating z.double := by
  have hlist : (z.text ++ ".0").toList = z.sign.text ++ z.digits ++ ['.', '0'] := by
    rw [String.toList_append, Numeral.text, String.toList_ofList]
    rfl
  have hstarts : startsNumber (z.text ++ ".0").toList = true := by
    rw [hlist]
    exact startsNumber_numeral z ['.', '0']
  obtain ⟨hinteger, hcode, hfloating⟩ := signed_pointed h
  rw [ofPlain_of_startsNumber hstarts, hlist, hinteger, hcode, hfloating]
  rfl

end Scalar

end ScriptTree.Yaml
