import ScriptTree.Yaml.Fault

/-!
# Declared types

The types that documents are read as are declared rather than programmed: a record lists its fields,
and a sum its variants, in the order in which they are tried. How a value of a declared type is read
is left to a library, which is given the type and the text and gives a value or says what is wrong.
-/

namespace ScriptTree

open Yaml (Cause Scalar)

/-! ## Scalars -/

/-- The types of fields that are single scalars. -/
inductive Primitive : Type → Type where
  | boolean : Primitive Bool
  | lineNumber : Primitive UInt64
  | text : Primitive String

/-- What a variant of a sum may hold. -/
inductive Payload : Type → Type where
  | integer : Payload Int64
  | double : Payload Float
  | boolean : Payload Bool

/-- What a scalar holds for a payload, if it can be taken for one. -/
def Payload.ofScalar? {β : Type} : Payload β → Scalar → Option β
  | .integer => Scalar.asInteger?
  | .double => Scalar.asDouble?
  | .boolean => Scalar.asBoolean?

/-- A variant of a sum whose values do not tell which variant they are. -/
structure Variant (α : Type) where
  {Content : Type}
  payload : Payload Content
  wrap : Content → α

def Variant.ofScalar? {α : Type} (v : Variant α) (s : Scalar) : Option α :=
  (v.payload.ofScalar? s).map v.wrap

/-! ## Records -/

/-- A type of records. -/
structure RecordType (α : Type) where
  name : String
  /-- Whether every entry has to be one of a field. Otherwise other entries are passed over. -/
  isStrict : Bool
  Field : Type
  [decEq : DecidableEq Field]
  /-- The fields, in the order of their declaration. -/
  fields : List Field
  mem_fields : ∀ f, f ∈ fields
  label : Field → String
  label_injective : ∀ {f g}, label f = label g → f = g
  Value : Field → Type
  /-- What a field holds that no entry was given for, if that is allowed. -/
  default : (f : Field) → Option (Value f)
  make : ((f : Field) → Value f) → α

namespace RecordType

attribute [instance] decEq

variable {α : Type} (r : RecordType α)

def labels : List String :=
  r.fields.map r.label

def ofLabel? (label : String) : Option r.Field :=
  r.fields.find? (r.label · == label)

/-- The fields of a record as far as they have been met. -/
abbrev Partial : Type :=
  (f : r.Field) → Option (r.Value f)

namespace Partial

variable {r}

def empty : r.Partial :=
  fun _ => none

/-- The record with a value for one more field. -/
def set (p : r.Partial) (f : r.Field) (v : r.Value f) : r.Partial :=
  fun g => if h : f = g then some (h ▸ v) else p g

/-- The first field that was not met and has no default. -/
def missing? (p : r.Partial) : Option r.Field :=
  r.fields.find? fun f => ((p f).or (r.default f)).isNone

theorem isSome_of_missing? {p : r.Partial} (h : p.missing? = none) (f : r.Field) :
    ((p f).or (r.default f)).isSome = true := by
  have hnone := List.find?_eq_none.mp h f (r.mem_fields f)
  rwa [Bool.not_eq_true, Option.isNone_eq_false_iff] at hnone

/-- The value, with defaults for the fields that were not met. -/
def complete (p : r.Partial) : Except Cause α :=
  match h : p.missing? with
  | some f => .error (.missingField (r.label f))
  | none => .ok (r.make fun f => ((p f).or (r.default f)).get (isSome_of_missing? h f))

end Partial

end RecordType

/-! ## Shapes -/

/-- A declared type. -/
inductive Shape : Type → Type 1 where
  | scalar {α : Type} (p : Primitive α) : Shape α
  | optional {α : Type} (s : Shape α) : Shape (Option α)
  | list {α : Type} (s : Shape α) : Shape (List α)
  /-- A sum. A value is of the first variant that it can be taken for. -/
  | firstOf {α : Type} (name : String) (variants : List (Variant α)) : Shape α
  | record {α : Type} (r : RecordType α) (shapes : (f : r.Field) → Shape (r.Value f)) : Shape α

/-- A library that reads documents: given a declared type and a text, it gives the value that the
text holds or says what is wrong with it. -/
structure Library where
  read {α : Type} : Shape α → String → Except Yaml.Failure α

end ScriptTree
