import ScriptTree.FoldSuite
import ScriptTree.Proofs.Record.Held

/-!
# Literals that stand in a document

A literal is decoded at a node exactly if it stands there: the library delivers a scalar that can be
taken for an integer, or else for a double, or else for a truth value.  Any integer can be taken for
a double, so the order decides which integers stay integers.  A literal that may be missing is
missing at a null, and a null is never taken for a literal.
-/

namespace ScriptTree.Literal

open Yaml (Scalar Numeral)

/-! ## The order of the variants -/

theorem asInteger?_of_fits {n : Int} (hlow : -2 ^ 63 ≤ n) (hhigh : n < 2 ^ 63) :
    Scalar.asInteger? (.integer n) = some (Int64.ofInt n) := by
  have hfits : -Int.pow 2 63 ≤ n ∧ n < Int.pow 2 63 := ⟨hlow, hhigh⟩
  rw [Scalar.asInteger?, if_pos hfits]

theorem asInteger?_of_large {n : Int} (h : 2 ^ 63 ≤ n) :
    Scalar.asInteger? (.integer n) = none := by
  have hfits : ¬ (-Int.pow 2 63 ≤ n ∧ n < Int.pow 2 63) := fun hfits => Int.not_lt.mpr h hfits.2
  rw [Scalar.asInteger?, if_neg hfits]

/-- An integer that fits is an integer, although it can be taken for a double as well. -/
theorem ofScalar?_integer {n : Int} (hlow : -2 ^ 63 ≤ n) (hhigh : n < 2 ^ 63) :
    ofScalar? (.integer n) = some (.integer (Int64.ofInt n)) := by
  have hfirst : (Variant.mk .integer Literal.integer).ofScalar? (.integer n) =
      some (.integer (Int64.ofInt n)) := by
    rw [Variant.ofScalar?, Payload.ofScalar?, asInteger?_of_fits hlow hhigh]
    rfl
  rw [ofScalar?, variants, List.findSome?_cons, hfirst]

/-- An integer that does not fit is left to the doubles. -/
theorem ofScalar?_large {n : Int} (h : 2 ^ 63 ≤ n) :
    ofScalar? (.integer n) = some (.double (Float.ofInt n)) := by
  have hfirst : (Variant.mk .integer Literal.integer).ofScalar? (.integer n) = none := by
    rw [Variant.ofScalar?, Payload.ofScalar?, asInteger?_of_large h]
    rfl
  rw [ofScalar?, variants, List.findSome?_cons, hfirst]
  rfl

theorem ofScalar?_floating (x : Float) : ofScalar? (.floating x) = some (.double x) := rfl

theorem ofScalar?_boolean (b : Bool) : ofScalar? (.boolean b) = some (.boolean b) := rfl

theorem ofScalar?_null : ofScalar? .null = none := rfl

/-! ## Decoding -/

/-- A literal stands at a node whose scalar is taken for it. -/
def Stands (R : Reading) (node : R.Node) (l : Literal) : Prop :=
  ∃ s, R.scalar? node = some s ∧ ofScalar? s = some l

/-- What the values of a field say to be expected.  There is no literal if the field is missing or
its value is a null. -/
inductive StandsExpected (R : Reading) : List R.Node → Option Literal → Prop where
  | unsaid : StandsExpected R [] none
  | null {value : R.Node} (h : R.isNull value = .ok true) : StandsExpected R [value] none
  | literal {value : R.Node} {l : Literal} (h : Stands R value l) :
      StandsExpected R [value] (some l)

variable {L : Library} {R : Reading} {node : R.Node} {l : Literal}

theorem Stands.unique {l' : Literal} (h : Stands R node l) (h' : Stands R node l') : l = l' := by
  obtain ⟨s, hs, hl⟩ := h
  obtain ⟨s', hs', hl'⟩ := h'
  cases hs.symm.trans hs'
  exact Option.some.inj (hl.symm.trans hl')

theorem decode_shape_eq_ok_iff (hR : R.Governs L) : R.decode shape node = .ok l ↔ Stands R node l :=
  hR.decode_firstOf

/-- No literal stands where a null stands. -/
theorem not_stands_of_isNull (hR : R.Governs L) (h : R.isNull node = .ok true) (l : Literal) :
    ¬ Stands R node l := by
  rintro ⟨s, hs, hl⟩
  cases hs.symm.trans (hR.scalar?_of_isNull h)
  cases ofScalar?_null.symm.trans hl

theorem isNull_of_stands (hR : R.Governs L) (h : Stands R node l) : R.isNull node = .ok false := by
  obtain ⟨s, hs, hl⟩ := h
  refine hR.isNull_of_scalar? hs ?_
  rintro rfl
  cases ofScalar?_null.symm.trans hl

theorem decode_optional_eq_none_iff (hR : R.Governs L) :
    R.decode (.optional shape) node = .ok none ↔ R.isNull node = .ok true := by
  rw [hR.decode_optional, Result.bind_eq_ok_iff]
  constructor
  · rintro ⟨missing, hmissing, h⟩
    cases missing with
    | true => exact hmissing
    | false =>
        obtain ⟨_, -, ⟨⟩⟩ := Result.map_eq_ok_iff.mp h
  · exact fun h => ⟨true, h, rfl⟩

theorem decode_optional_eq_some_iff (hR : R.Governs L) :
    R.decode (.optional shape) node = .ok (some l) ↔ Stands R node l := by
  rw [hR.decode_optional, Result.bind_eq_ok_iff]
  constructor
  · rintro ⟨missing, -, h⟩
    cases missing with
    | true => cases h
    | false =>
        obtain ⟨l', hl', ⟨⟩⟩ := Result.map_eq_ok_iff.mp h
        exact (decode_shape_eq_ok_iff hR).mp hl'
  · intro h
    refine ⟨false, isNull_of_stands hR h, ?_⟩
    rw [(decode_shape_eq_ok_iff hR).mpr h]
    rfl

/-- What is expected is decoded of the only value of its field, or missing like the field. -/
theorem standsExpected_iff (hR : R.Governs L) {values : List R.Node} {expected : Option Literal} :
    StandsExpected R values expected ↔
      Filled (fun v o => R.decode (.optional shape) v = .ok o) (some none) values expected := by
  constructor
  · rintro (_ | hnull | hl)
    · exact .missing rfl
    · exact .met ((decode_optional_eq_none_iff hR).mpr hnull)
    · exact .met ((decode_optional_eq_some_iff hR).mpr hl)
  · rintro (hdefault | hvalue)
    · cases hdefault
      exact .unsaid
    · cases expected with
      | none => exact .null ((decode_optional_eq_none_iff hR).mp hvalue)
      | some l => exact .literal ((decode_optional_eq_some_iff hR).mp hvalue)

/-! ## What a text tells of a literal -/

/-- The literal at a plain scalar without a tag is told by its text.  An integer of 64 bits stays
what it is; if it does not fit a signed one, or if it has a point, it is a double. -/
structure ToldBy (R : Reading) (node : R.Node) (text : String) : Prop where
  integer (z : Numeral) : Scalar.hasLeadingZero z.digits = false → text = z.text →
    -2 ^ 63 ≤ z.value → z.value < 2 ^ 63 →
    ∀ l, Stands R node l ↔ ∃ n : Int64, n.toInt = z.value ∧ l = .integer n
  large (z : Numeral) : Scalar.hasLeadingZero z.digits = false → text = z.text →
    2 ^ 63 ≤ z.value → z.value < 2 ^ 64 →
    ∀ l, Stands R node l ↔ l = .double (Float.ofInt z.value)
  pointed (z : Numeral) : text = z.text ++ ".0" → -2 ^ 63 ≤ z.value → z.value < 2 ^ 64 →
    ∀ l, Stands R node l ↔ l = .double z.double
  boolean (b : Bool) : Scalar.boolean? text = some b → ∀ l, Stands R node l ↔ l = .boolean b
  null : text.isEmpty = true ∨ Scalar.isNull text = true →
    R.isNull node = .ok true ∧ ∀ l, ¬ Stands R node l

theorem stands_plain_iff (hR : R.Governs L) {text : String} (h : R.plain? node = some text) :
    Stands R node l ↔ ofScalar? (R.resolve text) = some l := by
  rw [Stands, hR.scalar?_of_plain? h]
  constructor
  · rintro ⟨_, ⟨⟩, hl⟩
    exact hl
  · exact fun hl => ⟨_, rfl, hl⟩

theorem toldBy_plain (hR : R.Governs L) {text : String} (h : R.plain? node = some text) :
    ToldBy R node text := by
  have hstands : ∀ {s : Scalar} {l' : Literal}, R.resolve text = s → ofScalar? s = some l' →
      ∀ l, Stands R node l ↔ l = l' := by
    rintro s l' rfl hl' l
    rw [stands_plain_iff hR h, hl', Option.some.injEq, eq_comm]
  constructor
  case integer =>
    rintro z hzeros rfl hlow hhigh l
    have hresolve : R.resolve z.text = .integer z.value :=
      hR.resolve_numeral hzeros hlow (Int.lt_trans hhigh (by decide))
    rw [hstands hresolve (ofScalar?_integer hlow hhigh)]
    constructor
    · rintro rfl
      exact ⟨_, Int64.toInt_ofInt_of_le hlow hhigh, rfl⟩
    · rintro ⟨n, hn, rfl⟩
      rw [← hn, Int64.ofInt_toInt]
  case large =>
    rintro z hzeros rfl hlow hhigh
    have hresolve : R.resolve z.text = .integer z.value :=
      hR.resolve_numeral hzeros (Int.le_trans (by decide) hlow) hhigh
    exact hstands hresolve (ofScalar?_large hlow)
  case pointed =>
    rintro z rfl hlow hhigh
    exact hstands (hR.resolve_pointed hlow hhigh) (ofScalar?_floating z.double)
  case boolean =>
    intro b hb
    exact hstands (hR.resolve_boolean hb) (ofScalar?_boolean b)
  case null =>
    intro hnull
    have hmissing : R.isNull node = .ok true := hR.isNull_of_plain? h (hR.resolve_null hnull)
    exact ⟨hmissing, not_stands_of_isNull hR hmissing⟩

/-! ## What is expected -/

/-- The expected literal is missing exactly if its key is, or if its value is a null, and otherwise
it is the literal that stands there. -/
structure ExpectedBy (R : Reading) (values : List R.Node) (expected : Option Literal) : Prop where
  eq_none_iff : expected = none ↔
    values = [] ∨ ∃ value, values = [value] ∧ R.isNull value = .ok true
  eq_some_iff (l : Literal) : expected = some l ↔ ∃ value, values = [value] ∧ Stands R value l

theorem StandsExpected.expectedBy (hR : R.Governs L) {values : List R.Node}
    {expected : Option Literal} (h : StandsExpected R values expected) :
    ExpectedBy R values expected := by
  cases h with
  | unsaid =>
      refine ⟨iff_of_true rfl (.inl rfl), fun l => iff_of_false (fun h => by cases h) ?_⟩
      rintro ⟨_, ⟨⟩, -⟩
  | @null value hnull =>
      refine ⟨iff_of_true rfl (.inr ⟨value, rfl, hnull⟩), fun l => ?_⟩
      refine iff_of_false (fun h => by cases h) ?_
      rintro ⟨_, ⟨⟩, hl⟩
      exact not_stands_of_isNull hR hnull l hl
  | @literal value l hl =>
      refine ⟨iff_of_false (fun h => by cases h) ?_, fun l' => ⟨?_, ?_⟩⟩
      · rintro (⟨⟨⟩⟩ | ⟨_, ⟨⟩, hnull⟩)
        exact not_stands_of_isNull hR hnull l hl
      · rintro ⟨⟩
        exact ⟨value, rfl, hl⟩
      · rintro ⟨_, ⟨⟩, hl'⟩
        rw [hl.unique hl']

end ScriptTree.Literal
