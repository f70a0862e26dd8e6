import ScriptTree.Proofs.FoldSuite.Literal

/-!
# Cases and suites that stand in a document

A case is decoded of a mapping exactly if its fields hold what the entries say, and a suite exactly
if its cases stand in its lists, one for each item and in the same order.  All three kinds of
mappings are records that pass over other entries, so each of them only has to name its fields.
-/

namespace ScriptTree

variable {L : Library} {R : Reading} {node : R.Node}

/-- Without a default, a field holds what stands at its only value. -/
theorem filled_none_iff {ν α : Type} {stands : ν → α → Prop} {values : List ν} {a : α} :
    Filled stands none values a ↔ Held stands values (some a) := by
  constructor
  · rintro (hdefault | ha)
    · cases hdefault
    · exact .met ha
  · rintro (_ | ha)
    exact .met ha

/-! ## Cases of an operator -/

namespace BinaryCase

/-- What a case holds in a field. -/
def value (c : BinaryCase) : (f : Field) → f.Value
  | .name => c.name
  | .operator => c.operator
  | .left => c.left
  | .right => c.right
  | .expected => c.expected

/-- A case stands in the entries of a mapping.  Each field has one value, and the expected literal
may be missing.  Entries with other names do not matter. -/
structure StandsIn (R : Reading) (entries : List (String × R.Node)) (c : BinaryCase) : Prop where
  name : Held (R.text? · = some ·) (valuesOf "name" entries) (some c.name)
  operator : Held (R.text? · = some ·) (valuesOf "op" entries) (some c.operator)
  left : Held (Literal.Stands R) (valuesOf "left" entries) (some c.left)
  right : Held (Literal.Stands R) (valuesOf "right" entries) (some c.right)
  expected : Literal.StandsExpected R (valuesOf "expected" entries) c.expected

/-- A case stands at a node. -/
def Stands (R : Reading) (node : R.Node) (c : BinaryCase) : Prop :=
  ∃ entries, R.named? node = some entries ∧ c.StandsIn R entries

theorem decode_shape_eq_ok_iff (hR : R.Governs L) {c : BinaryCase} :
    R.decode shape node = .ok c ↔ Stands R node c := by
  rw [shape, hR.decode_record_eq_ok_iff rfl]
  refine exists_congr fun entries => and_congr_right fun _ => ?_
  constructor
  · rintro ⟨value, hvalue, rfl⟩
    constructor
    case name => simpa only [hR.decode_text, filled_none_iff] using hvalue Field.name
    case operator => simpa only [hR.decode_text, filled_none_iff] using hvalue Field.operator
    case left =>
      simpa only [Literal.decode_shape_eq_ok_iff hR, filled_none_iff] using hvalue Field.left
    case right =>
      simpa only [Literal.decode_shape_eq_ok_iff hR, filled_none_iff] using hvalue Field.right
    case expected => exact (Literal.standsExpected_iff hR).mpr (hvalue Field.expected)
  · rintro ⟨hname, hoperator, hleft, hright, hexpected⟩
    refine ⟨c.value, fun f => ?_, rfl⟩
    cases f with
    | name => simpa only [value, hR.decode_text, filled_none_iff] using hname
    | operator => simpa only [value, hR.decode_text, filled_none_iff] using hoperator
    | left => simpa only [value, Literal.decode_shape_eq_ok_iff hR, filled_none_iff] using hleft
    | right => simpa only [value, Literal.decode_shape_eq_ok_iff hR, filled_none_iff] using hright
    | expected => exact (Literal.standsExpected_iff hR).mp hexpected

end BinaryCase

/-! ## Cases of the minus -/

namespace NegateCase

/-- What a case holds in a field. -/
def value (c : NegateCase) : (f : Field) → f.Value
  | .name => c.name
  | .operand => c.operand
  | .expected => c.expected

/-- A case stands in the entries of a mapping, as one of an operator does. -/
structure StandsIn (R : Reading) (entries : List (String × R.Node)) (c : NegateCase) : Prop where
  name : Held (R.text? · = some ·) (valuesOf "name" entries) (some c.name)
  operand : Held (Literal.Stands R) (valuesOf "operand" entries) (some c.operand)
  expected : Literal.StandsExpected R (valuesOf "expected" entries) c.expected

/-- A case stands at a node. -/
def Stands (R : Reading) (node : R.Node) (c : NegateCase) : Prop :=
  ∃ entries, R.named? node = some entries ∧ c.StandsIn R entries

theorem decode_shape_eq_ok_iff (hR : R.Governs L) {c : NegateCase} :
    R.decode shape node = .ok c ↔ Stands R node c := by
  rw [shape, hR.decode_record_eq_ok_iff rfl]
  refine exists_congr fun entries => and_congr_right fun _ => ?_
  constructor
  · rintro ⟨value, hvalue, rfl⟩
    constructor
    case name => simpa only [hR.decode_text, filled_none_iff] using hvalue Field.name
    case operand =>
      simpa only [Literal.decode_shape_eq_ok_iff hR, filled_none_iff] using hvalue Field.operand
    case expected => exact (Literal.standsExpected_iff hR).mpr (hvalue Field.expected)
  · rintro ⟨hname, hoperand, hexpected⟩
    refine ⟨c.value, fun f => ?_, rfl⟩
    cases f with
    | name => simpa only [value, hR.decode_text, filled_none_iff] using hname
    | operand =>
        simpa only [value, Literal.decode_shape_eq_ok_iff hR, filled_none_iff] using hoperand
    | expected => exact (Literal.standsExpected_iff hR).mp hexpected

end NegateCase

/-! ## Suites -/

/-- A list stands at a node if its elements stand at the items of a sequence, one for each. -/
def ListStands {α : Type} (R : Reading) (stands : R.Node → α → Prop) (node : R.Node)
    (as : List α) : Prop :=
  ∃ items, R.items? node = some items ∧ List.Forall₂ stands items as

namespace FoldSuite

/-- What a suite holds in a field. -/
def value (s : FoldSuite) : (f : Field) → f.Value
  | .binary => s.binary
  | .negate => s.negate

/-- A suite stands in the entries of a mapping.  Each list has one value at most, and is empty if it
has none. -/
structure StandsIn (R : Reading) (entries : List (String × R.Node)) (s : FoldSuite) : Prop where
  binary : Filled (ListStands R (BinaryCase.Stands R)) (some []) (valuesOf "binary" entries)
    s.binary
  negate : Filled (ListStands R (NegateCase.Stands R)) (some []) (valuesOf "negate" entries)
    s.negate

/-- A suite stands at a node. -/
def Stands (R : Reading) (node : R.Node) (s : FoldSuite) : Prop :=
  ∃ entries, R.named? node = some entries ∧ s.StandsIn R entries

theorem decode_shape_eq_ok_iff (hR : R.Governs L) {s : FoldSuite} :
    R.decode shape node = .ok s ↔ Stands R node s := by
  have hbinary : ∀ {v : R.Node} {cases : List BinaryCase},
      R.decode (.list BinaryCase.shape) v = .ok cases ↔
        ListStands R (BinaryCase.Stands R) v cases := by
    simp only [hR.decode_list, BinaryCase.decode_shape_eq_ok_iff hR, ListStands, implies_true]
  have hnegate : ∀ {v : R.Node} {cases : List NegateCase},
      R.decode (.list NegateCase.shape) v = .ok cases ↔
        ListStands R (NegateCase.Stands R) v cases := by
    simp only [hR.decode_list, NegateCase.decode_shape_eq_ok_iff hR, ListStands, implies_true]
  rw [shape, hR.decode_record_eq_ok_iff rfl]
  refine exists_congr fun entries => and_congr_right fun _ => ?_
  constructor
  · rintro ⟨value, hvalue, rfl⟩
    constructor
    case binary => simpa only [hbinary] using hvalue Field.binary
    case negate => simpa only [hnegate] using hvalue Field.negate
  · rintro ⟨hb, hn⟩
    refine ⟨s.value, fun f => ?_, rfl⟩
    cases f with
    | binary => simpa only [value, hbinary] using hb
    | negate => simpa only [value, hnegate] using hn

end FoldSuite

end ScriptTree
