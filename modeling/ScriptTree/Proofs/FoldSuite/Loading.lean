import Mathlib.Data.List.Nodup
import ScriptTree.Proofs.FoldSuite
import ScriptTree.Proofs.FoldSuite.Cases
import ScriptTree.Proofs.Yaml.Library

/-!
# Literals of a suite that is loaded

A suite is loaded exactly if it stands in its document.  So what stands where a literal is asked for
is told for one scalar at a time, by its text, and holds wherever the scalar is and whatever else
the suite has.  Integers are tried before doubles, and a double is what an integer becomes that does
not fit.
-/

namespace ScriptTree.FoldSuite

open Yaml (Node Document Numeral Scalar reading)

variable {L : Library} {R : Reading} {text : String}

/-! ## What is loaded -/

theorem holds_iff (hR : R.Governs L) {root : R.Node} (hroot : R.root? text = some root)
    {stored : Stored} (htext : stored.text = .ok text) (s : FoldSuite) :
    Holds L stored s ↔ s.Stands R root ∧ R.Affords shape root := by
  rw [← decode_shape_eq_ok_iff hR, ← hR.read_eq_ok_iff hroot]
  constructor
  · rintro ⟨text', htext', hs⟩
    obtain rfl := Except.ok.inj (htext.symm.trans htext')
    exact hs
  · exact fun hs => ⟨text, htext, hs⟩

theorem check_eq_ok_iff {path : String} {s t : FoldSuite} :
    check path s = .ok t ↔ t = s ∧ (s.binary ≠ [] ∨ s.negate ≠ []) ∧
      ∀ name, s.occurrences name ≤ 1 := by
  have hjudged := judged_check path s
  rw [← hjudged.isOk_iff]
  constructor
  · intro h
    exact ⟨(hjudged.unchanged t h).1, by rw [h]; rfl⟩
  · rintro ⟨rfl, hok⟩
    cases h : check path t with
    | error e =>
        rw [h] at hok
        cases hok
    | ok accepted => rw [(hjudged.unchanged accepted h).1]

theorem ofFile_eq_ok_iff {path : String} {stored : Stored} {s : FoldSuite} :
    ofFile L path stored = .ok s ↔ Holds L stored s ∧ (s.binary ≠ [] ∨ s.negate ≠ []) ∧
      ∀ name, s.occurrences name ≤ 1 := by
  constructor
  · intro h
    obtain ⟨text, htext, h⟩ := Result.bind_eq_ok_iff.mp h
    obtain ⟨t, hread, h⟩ := Result.bind_eq_ok_iff.mp h
    obtain ⟨rfl, hcheck⟩ := check_eq_ok_iff.mp h
    have hholds : Holds L stored s :=
      ⟨text, Result.mapError_eq_ok_iff.mp htext, Result.mapError_eq_ok_iff.mp hread⟩
    exact ⟨hholds, hcheck⟩
  · rintro ⟨hholds, hcheck⟩
    rw [ofFile_of_holds path hholds, check_eq_ok_iff]
    exact ⟨rfl, hcheck⟩

/-- A suite is loaded exactly if it stands in the document, with cases that have names of their own,
and if the document is not too short for its aliases.  Wherever a literal stands, its text tells its
kind and its value.  What a case expects is missing only if the key is missing or the value is a
null. -/
theorem literals_loaded_as_written (hR : R.Governs L) {root : R.Node}
    (hroot : R.root? text = some root) :
    (∀ path stored s, Stored.text stored = .ok text →
      (ofFile L path stored = .ok s ↔ (s.Stands R root ∧ R.Affords shape root) ∧
        (s.binary ≠ [] ∨ s.negate ≠ []) ∧ ∀ name, s.occurrences name ≤ 1)) ∧
    (∀ node t, R.plain? node = some t → Literal.ToldBy R node t) ∧
    (∀ entries (c : BinaryCase), c.StandsIn R entries →
      Literal.ExpectedBy R (valuesOf "expected" entries) c.expected) ∧
    ∀ entries (c : NegateCase), c.StandsIn R entries →
      Literal.ExpectedBy R (valuesOf "expected" entries) c.expected := by
  refine ⟨fun path stored s htext => ?_, fun node t hnode => ?_, ?_, ?_⟩
  · rw [ofFile_eq_ok_iff, holds_iff hR hroot htext]
  · exact Literal.toldBy_plain hR hnode
  · exact fun entries c h => h.expected.expectedBy hR
  · exact fun entries c h => h.expected.expectedBy hR

/-! ## A file with numbers at the edge -/

/-- The last integer, and the number behind it. -/
def edgeCases : String :=
  "negate: [{name: a, operand: 9223372036854775807, expected: -1.0}, " ++
    "{name: b, operand: 9223372036854775808, expected: null}]"

def edgeTokens : List Yaml.Token :=
  [⟨.blockMappingStart, 0, 0⟩, ⟨.key, 0, 0⟩, ⟨.scalar .plain "negate", 0, 0⟩, ⟨.value, 0, 6⟩,
    ⟨.flowSequenceStart, 0, 8⟩, ⟨.flowMappingStart, 0, 9⟩, ⟨.key, 0, 10⟩,
    ⟨.scalar .plain "name", 0, 10⟩, ⟨.value, 0, 14⟩, ⟨.scalar .plain "a", 0, 16⟩,
    ⟨.flowEntry, 0, 17⟩, ⟨.key, 0, 19⟩, ⟨.scalar .plain "operand", 0, 19⟩, ⟨.value, 0, 26⟩,
    ⟨.scalar .plain "9223372036854775807", 0, 28⟩, ⟨.flowEntry, 0, 47⟩, ⟨.key, 0, 49⟩,
    ⟨.scalar .plain "expected", 0, 49⟩, ⟨.value, 0, 57⟩, ⟨.scalar .plain "-1.0", 0, 59⟩,
    ⟨.flowMappingEnd, 0, 63⟩, ⟨.flowEntry, 0, 64⟩, ⟨.flowMappingStart, 0, 66⟩, ⟨.key, 0, 67⟩,
    ⟨.scalar .plain "name", 0, 67⟩, ⟨.value, 0, 71⟩, ⟨.scalar .plain "b", 0, 73⟩,
    ⟨.flowEntry, 0, 74⟩, ⟨.key, 0, 76⟩, ⟨.scalar .plain "operand", 0, 76⟩, ⟨.value, 0, 83⟩,
    ⟨.scalar .plain "9223372036854775808", 0, 85⟩, ⟨.flowEntry, 0, 104⟩, ⟨.key, 0, 106⟩,
    ⟨.scalar .plain "expected", 0, 106⟩, ⟨.value, 0, 114⟩, ⟨.scalar .plain "null", 0, 116⟩,
    ⟨.flowMappingEnd, 0, 120⟩, ⟨.flowSequenceEnd, 0, 121⟩, ⟨.blockEnd, 1, 0⟩, ⟨.textEnd, 1, 0⟩]

/-- A plain scalar of the only line. -/
def plainAt (column : Nat) (text : String) : Node :=
  .scalar ⟨0, column⟩ .none .plain text

/-- The entries of a case of the only line, with the columns of the keys and the name. -/
def entriesAt (columns : Nat × Nat × Nat × Nat) (name : String) (operand expected : Node) :
    List (Node × Node) :=
  [(plainAt columns.1 "name", plainAt columns.2.1 name), (plainAt columns.2.2.1 "operand", operand),
    (plainAt columns.2.2.2 "expected", expected)]

def edgeDocument : Document :=
  ⟨.mapping ⟨0, 0⟩ .none [(plainAt 0 "negate", .sequence ⟨0, 8⟩ .none [
    .mapping ⟨0, 9⟩ .none (entriesAt (10, 16, 19, 49) "a" (plainAt 28 "9223372036854775807")
      (plainAt 59 "-1.0")),
    .mapping ⟨0, 66⟩ .none (entriesAt (67, 73, 76, 106) "b" (plainAt 85 "9223372036854775808")
      (plainAt 116 "null"))])]⟩

theorem ofText?_edgeCases : Document.ofText? edgeCases = some edgeDocument := by
  have htokens : Yaml.Token.ofText? edgeCases = some edgeTokens := by decide +kernel
  rw [Document.ofText?, htokens]
  rfl

variable {d : Document}

theorem plain?_plainAt (column : Nat) (text : String) :
    reading.plain? ⟨d, plainAt column text⟩ = some text :=
  reading.plain?_eq_some_iff.mpr ⟨_, _, rfl, rfl⟩

theorem stands_entriesAt {mark : Yaml.Mark} {columns : Nat × Nat × Nat × Nat} {name : String}
    {operand expected : Node} {l : Literal} {o : Option Literal}
    (hl : Literal.Stands reading ⟨d, operand⟩ l)
    (ho : Literal.StandsExpected reading [⟨d, expected⟩] o) :
    NegateCase.Stands reading ⟨d, .mapping mark .none (entriesAt columns name operand expected)⟩
      ⟨name, l, o⟩ :=
  ⟨_, rfl, .met rfl, .met hl, ho⟩

theorem literals_loaded_as_written_of_edgeCases :
    load "cases.yaml" (.file edgeCases.toUTF8) = .ok ⟨[], [
      ⟨"a", .integer 9223372036854775807, some (.double (Float.ofInt (-1)))⟩,
      ⟨"b", .double (Float.ofInt 9223372036854775808), none⟩]⟩ := by
  obtain ⟨hload, htold, -⟩ :=
    literals_loaded_as_written Yaml.reading_governs (reading.root?_eq ofText?_edgeCases)
  have hzeros : ∀ n, Scalar.hasLeadingZero (Numeral.ofNat n).digits = false :=
    Scalar.hasLeadingZero_toDigits
  have hlast : Literal.Stands reading ⟨edgeDocument, plainAt 28 "9223372036854775807"⟩
      (.integer 9223372036854775807) := by
    have hdigits : "9223372036854775807" = (Numeral.ofNat 9223372036854775807).text := by
      decide +kernel
    have hvalue := Numeral.value_ofNat 9223372036854775807
    exact ((htold _ _ (plain?_plainAt _ _)).integer _ (hzeros _) hdigits (by omega) (by omega)
      _).mpr ⟨9223372036854775807, hvalue.symm, rfl⟩
  have hbeyond : Literal.Stands reading ⟨edgeDocument, plainAt 85 "9223372036854775808"⟩
      (.double (Float.ofInt 9223372036854775808)) := by
    have hdigits : "9223372036854775808" = (Numeral.ofNat 9223372036854775808).text := by
      decide +kernel
    have hvalue := Numeral.value_ofNat 9223372036854775808
    exact ((htold _ _ (plain?_plainAt _ _)).large _ (hzeros _) hdigits (by omega) (by omega)
      _).mpr (by rw [hvalue]; rfl)
  have hpointed : Literal.Stands reading ⟨edgeDocument, plainAt 59 "-1.0"⟩
      (.double (Float.ofInt (-1))) := by
    exact ((htold _ _ (plain?_plainAt _ _)).pointed
      ⟨.minus, ['1'], List.forall_mem_singleton.mpr rfl, List.cons_ne_nil _ _⟩ rfl (by decide)
      (by decide) _).mpr rfl
  have hnull : reading.isNull ⟨edgeDocument, plainAt 116 "null"⟩ = .ok true :=
    ((htold _ _ (plain?_plainAt _ _)).null (.inr (by decide))).1
  have hstands : FoldSuite.Stands reading ⟨edgeDocument, edgeDocument.root⟩ ⟨[], [
      ⟨"a", .integer 9223372036854775807, some (.double (Float.ofInt (-1)))⟩,
      ⟨"b", .double (Float.ofInt 9223372036854775808), none⟩]⟩ := by
    refine ⟨_, rfl, .missing rfl, .met ⟨_, rfl, ?_⟩⟩
    refine .cons ?_ (.cons ?_ .nil)
    · exact stands_entriesAt hlast (.literal hpointed)
    · exact stands_entriesAt hbeyond (.null hnull)
  have haffords : reading.Affords shape ⟨edgeDocument, edgeDocument.root⟩ := by
    change edgeDocument.needs shape edgeDocument.root ≤
      Yaml.Decode.aliasesPerUnit * edgeDocument.root.size
    decide +kernel
  refine (hload _ _ _ (text_file_toUTF8 edgeCases)).mpr ⟨⟨hstands, haffords⟩, ?_, ?_⟩
  · exact .inr (List.cons_ne_nil _ _)
  · intro name
    rw [← count_names]
    exact List.nodup_iff_count_le_one.mp (by decide) name

end ScriptTree.FoldSuite
