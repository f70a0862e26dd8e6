import Mathlib.Algebra.Group.Int.Defs
import Mathlib.Data.List.Forall2
import ScriptTree.Loading
import ScriptTree.Proofs.Text.Written

/-!
# What is known of the library

The library that reads documents is not part of this development, and so it is a parameter.  So is
the way in which it takes a document: its nodes, what is decoded at each of them, and what its
scalars stand for.  The conditions on the two say what the library and the readers that are derived
from declared types are documented to do.  Aliases are followed wherever something is read at a
node.
-/

namespace ScriptTree

open Yaml (Cause Scalar Style Tag Numeral PlainLine)

/-! ## Documents -/

/-- What is written at a node. -/
inductive Content (ν : Type) where
  | scalar (tag : Option Tag) (style : Style) (text : String)
  | sequence (items : List ν)
  | mapping (entries : List (ν × ν))
  /-- An alias, which stands for a node. -/
  | reference (target : ν)

/-- The way in which a library takes documents. -/
structure Reading where
  Node : Type
  /-- The root of a text that is one well-formed document. -/
  root? : String → Option Node
  content : Node → Content Node
  /-- What is decoded at a node, however many aliases are followed. -/
  decode {α : Type} : Shape α → Node → Except Cause α
  /-- The aliases that are followed do not exceed the limit of the library. -/
  Affords {α : Type} : Shape α → Node → Prop
  /-- Whether a value is missing at a node where it may be missing. -/
  isNull : Node → Except Cause Bool
  /-- The scalar that is delivered at a node to what takes any value. -/
  scalar? : Node → Option Scalar
  /-- What a plain scalar without a tag stands for. -/
  resolve : String → Scalar

namespace Reading

variable (R : Reading)

/-- The node itself, or the node that an alias stands for. -/
def target (node : R.Node) : R.Node :=
  match R.content node with
  | .reference target => target
  | _ => node

/-- The text of the scalar at a node. -/
def text? (node : R.Node) : Option String :=
  match R.content (R.target node) with
  | .scalar _ _ text => some text
  | _ => none

/-- The text of the plain scalar without a tag at a node. -/
def plain? (node : R.Node) : Option String :=
  match R.content (R.target node) with
  | .scalar none .plain text => some text
  | _ => none

/-- The items of the sequence at a node.  A node that was left out has none. -/
def items? (node : R.Node) : Option (List R.Node) :=
  match R.content (R.target node) with
  | .sequence items => some items
  | .scalar _ .plain "" => some []
  | _ => none

/-- The entries of the mapping at a node.  A node that was left out has none. -/
def entries? (node : R.Node) : Option (List (R.Node × R.Node)) :=
  match R.content (R.target node) with
  | .mapping entries => some entries
  | .scalar _ .plain "" => some []
  | _ => none

/-- The entries of the mapping at a node with the texts of their keys, in the order of the document,
if all keys are scalars. -/
def named? (node : R.Node) : Option (List (String × R.Node)) :=
  (R.entries? node).bind fun entries =>
    entries.mapM fun entry => (R.text? entry.1).map (·, entry.2)

end Reading

/-! ## Readers of records -/

/-- An entry on top of the fields that have been met.  It is an error if the field was met before,
and then the value is not decoded. -/
def RecordType.Partial.visit {α ν : Type} {r : RecordType α}
    (decode : (f : r.Field) → ν → Except Cause (r.Value f)) (p : r.Partial) (entry : String × ν) :
    Except Cause r.Partial :=
  match r.ofLabel? entry.1 with
  | none => if r.isStrict then .error (.unknownField entry.1 r.labels) else .ok p
  | some f =>
    if (p f).isSome then .error (.duplicateField entry.1)
    else (decode f entry.2).map (p.set f)

/-- A cause that says that a scalar does not have the type that was asked. -/
inductive IsComplaint : Cause → Prop where
  | invalidType (found : Yaml.Found) (expected : Yaml.Expected) :
      IsComplaint (.invalidType found expected)
  | invalidValue (text : String) (expected : Yaml.Expected) :
      IsComplaint (.invalidValue text expected)

/-! ## Conditions -/

/-- A library takes documents in a way. -/
structure Reading.Governs (R : Reading) (L : Library) : Prop where
  /-- A document is read as what is decoded at its root, within the limit on aliases. -/
  read_eq_ok_iff {α : Type} {s : Shape α} {text : String} {root : R.Node} {a : α} :
    R.root? text = some root → (L.read s text = .ok a ↔ R.decode s root = .ok a ∧ R.Affords s root)
  /-- The limit is on what is expanded, so that a record of scalars is never too much.  What is
  wrong with it is told with a place. -/
  read_record {α : Type} {r : RecordType α} {type : (f : r.Field) → Primitive (r.Value f)}
    {text : String} {root : R.Node} {entries : List (String × R.Node)} :
    R.root? text = some root → R.named? root = some entries →
    ∃ place, L.read (.record r fun f => .scalar (type f)) text =
      (R.decode (.record r fun f => .scalar (type f)) root).mapError fun c => .fault ⟨c, place⟩
  /-- The items of a sequence are decoded one by one. -/
  decode_list {α : Type} {s : Shape α} {node : R.Node} {as : List α} :
    R.decode (.list s) node = .ok as ↔
      ∃ items, R.items? node = some items ∧
        List.Forall₂ (fun item a => R.decode s item = .ok a) items as
  /-- The entries of a mapping are visited in the order of the document, and then the fields that
  were not met are looked at. -/
  decode_record {α : Type} {r : RecordType α} {shapes : (f : r.Field) → Shape (r.Value f)}
    {node : R.Node} {entries : List (String × R.Node)} :
    R.named? node = some entries →
    R.decode (.record r shapes) node =
      entries.foldlM (RecordType.Partial.visit fun f => R.decode (shapes f)) .empty >>=
        RecordType.Partial.complete
  /-- A record is decoded of nothing but a mapping whose keys are scalars. -/
  exists_named {α : Type} {r : RecordType α} {shapes : (f : r.Field) → Shape (r.Value f)}
    {node : R.Node} {a : α} :
    R.decode (.record r shapes) node = .ok a → ∃ entries, R.named? node = some entries
  /-- What is not missing is decoded as if it could not be missing. -/
  decode_optional {α : Type} {s : Shape α} {node : R.Node} :
    R.decode (.optional s) node =
      R.isNull node >>= fun missing => if missing then .ok none else (R.decode s node).map some
  /-- The variants of a sum are tried on the scalar that is delivered, in the order of their
  declaration. -/
  decode_firstOf {α : Type} {name : String} {variants : List (Variant α)} {node : R.Node} {a : α} :
    R.decode (.firstOf name variants) node = .ok a ↔
      ∃ s, R.scalar? node = some s ∧ variants.findSome? (·.ofScalar? s) = some a
  /-- Every scalar is text. -/
  decode_text {node : R.Node} {text : String} :
    R.decode (.scalar .text) node = .ok text ↔ R.text? node = some text
  /-- A plain scalar is a boolean if it stands for one. -/
  decode_boolean {node : R.Node} {text : String} {b : Bool} :
    R.plain? node = some text →
    (R.decode (.scalar .boolean) node = .ok b ↔ R.resolve text = .boolean b)
  /-- A plain scalar is the number of a line if it stands for one and has no minus. -/
  decode_lineNumber {node : R.Node} {text : String} {n : UInt64} :
    R.plain? node = some text →
    (R.decode (.scalar .lineNumber) node = .ok n ↔
      text.toList.head? ≠ some '-' ∧ R.resolve text = .integer n.toNat)
  /-- If the value of an entry is no scalar of a type, its type or its value is wrong. -/
  complaint {α : Type} {type : Primitive α} {text : String} {root : R.Node}
    {entries : List (String × R.Node)} {entry : String × R.Node} {cause : Cause} :
    R.root? text = some root → R.named? root = some entries → entry ∈ entries →
    R.decode (.scalar type) entry.2 = .error cause → IsComplaint cause
  /-- A plain scalar is delivered as what it stands for. -/
  scalar?_of_plain? {node : R.Node} {text : String} :
    R.plain? node = some text → R.scalar? node = some (R.resolve text)
  scalar?_of_isNull {node : R.Node} : R.isNull node = .ok true → R.scalar? node = some .null
  isNull_of_scalar? {node : R.Node} {s : Scalar} :
    R.scalar? node = some s → s ≠ .null → R.isNull node = .ok false
  isNull_of_plain? {node : R.Node} {text : String} :
    R.plain? node = some text → R.resolve text = .null → R.isNull node = .ok true
  /-- An integer of 64 bits, with or without a sign, stands for itself. -/
  resolve_numeral {z : Numeral} :
    Scalar.hasLeadingZero z.digits = false → -2 ^ 63 ≤ z.value → z.value < 2 ^ 64 →
    R.resolve z.text = .integer z.value
  /-- Decimal digits stand for no other integer. -/
  value_of_resolve {z : Numeral} {n : Int} : R.resolve z.text = .integer n → n = z.value
  /-- With a point, an integer stands for the double. -/
  resolve_pointed {z : Numeral} :
    -2 ^ 63 ≤ z.value → z.value < 2 ^ 64 → R.resolve (z.text ++ ".0") = .floating z.double
  resolve_boolean {text : String} {b : Bool} :
    Scalar.boolean? text = some b → R.resolve text = .boolean b
  resolve_null {text : String} :
    text.isEmpty = true ∨ Scalar.isNull text = true → R.resolve text = .null
  /-- Plain lines are a mapping with an entry for each line, in the order of the lines. -/
  lines {lines : List PlainLine} : lines ≠ [] →
    ∃ root entries, R.root? (String.ofList (PlainLine.textOf lines)) = some root ∧
      R.content root = .mapping entries ∧
      List.Forall₂ (fun l (entry : R.Node × R.Node) =>
        R.content entry.1 = .scalar none .plain (String.ofList l.name) ∧
          R.content entry.2 = .scalar none .plain (String.ofList l.word)) lines entries

end ScriptTree
