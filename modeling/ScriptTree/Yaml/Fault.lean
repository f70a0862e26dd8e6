import ScriptTree.Text.Quote
import ScriptTree.Yaml.Node
import ScriptTree.Yaml.Scalar

/-!
# Faults

Why a well-formed document does not hold what was asked of it. A fault is a cause together with the
place where it arose: the way from the root to a value, and the mark of the value.
-/

namespace ScriptTree.Yaml

/-! ## Paths -/

/-- The way from the root of a document to one of its values. -/
inductive Path where
  | root
  | item (parent : Path) (index : Nat)
  | field (parent : Path) (name : String)
  /-- The value of a key that is no scalar. -/
  | unnamed (parent : Path)
deriving DecidableEq, Repr

namespace Path

/-- The way from a mapping to the value of a key. -/
def entry (path : Path) : Node → Path
  | .scalar _ _ _ text => .field path text
  | _ => .unnamed path

/-- The text of a path in front of a name. The root has none there. -/
def inFront (path : Path) (text : String) : String :=
  if path = root then "" else text ++ "."

/-- The text of a path. The root alone is a point. -/
def text : Path → String
  | root => "."
  | item parent index => s!"{parent.text}[{index}]"
  | field parent name => parent.inFront parent.text ++ name
  | unnamed parent => parent.inFront parent.text ++ "?"

end Path

/-! ## Causes -/

/-- What was asked of a value. -/
inductive Expected where
  | boolean | integer | floating | null | lineNumber | text | sequence | fieldName | anyValue
  | record (name : String)
deriving DecidableEq, Repr

def Expected.message : Expected → String
  | boolean => "a boolean"
  | integer => "an integer"
  | floating => "a float"
  | null => "null"
  | lineNumber => "usize"
  | text => "a string"
  | sequence => "a sequence"
  | fieldName => "field identifier"
  | anyValue => "any value"
  | record name => "struct " ++ name

/-- What was found instead. -/
inductive Found where
  | scalar (s : Scalar)
  | sequence
  | mapping
deriving DecidableEq

/-- Every number is written out in full. -/
def Found.layout : Decimal.Layout :=
  .positional

/-- How messages call what was found. -/
def Found.message : Found → String
  | scalar .null => "unit value"
  | scalar (.boolean b) => s!"boolean `{b}`"
  | scalar (.integer n) => s!"integer `{n}`"
  | scalar (.wide n) => s!"integer `{n}` as " ++ if n < 0 then "i128" else "u128"
  | scalar (.floating x) => s!"floating point `{Double.text layout x}`"
  | scalar (.text s) => "string " ++ Text.quote s
  | sequence => "sequence"
  | mapping => "map"

/-- Why a value could not be read. -/
inductive Cause where
  | invalidType (found : Found) (expected : Expected)
  | invalidValue (text : String) (expected : Expected)
  | unknownField (name : String) (known : List String)
  | duplicateField (name : String)
  | missingField (name : String)
  /-- A value is of none of the types that a sum of types allows. -/
  | noVariant (type : String)
  /-- A value bears the name of a type where values of several types are told apart by shape. -/
  | namedType
  | recursionLimit
  | repetitionLimit
  | unknownAlias
deriving DecidableEq

def Cause.message : Cause → String
  | invalidType found expected => s!"invalid type: {found.message}, expected {expected.message}"
  | invalidValue text expected =>
    s!"invalid value: string {Text.quote text}, expected {expected.message}"
  | unknownField name known =>
    let names := " or ".intercalate (known.map fun n => s!"`{n}`")
    s!"unknown field `{name}`, expected {names}"
  | duplicateField name => s!"duplicate field `{name}`"
  | missingField name => s!"missing field `{name}`"
  | noVariant type => s!"data did not match any variant of untagged enum {type}"
  | namedType => "untagged and internally tagged enums do not support enum input"
  | recursionLimit => "recursion limit exceeded"
  | repetitionLimit => "repetition limit exceeded"
  | unknownAlias => "unknown anchor"

/-! ## Places -/

structure Place where
  mark : Mark
  path : Path
deriving DecidableEq, Repr

/-- The place of faults that concern the document as a whole. Messages do not name it. -/
def Place.whole : Place :=
  ⟨.start, .root⟩

/-- A cause, with its place as soon as it is known. -/
structure Fault where
  cause : Cause
  place : Option Place
deriving DecidableEq

namespace Fault

/-- The fault with a place, unless it has one. -/
def settle (f : Fault) (place : Place) : Fault :=
  { f with place := f.place <|> some place }

/-- The wording of a fault. The root and the first place of the text go without saying. -/
def message (f : Fault) : String :=
  let place := f.place.getD .whole
  let path := if place.path = .root then "" else place.path.text ++ ": "
  let location := (place.mark.text?.map (" at " ++ ·)).getD ""
  path ++ f.cause.message ++ location

end Fault

/-- Why no value was read from a text. -/
inductive Failure where
  /-- The text is not one well-formed document. -/
  | malformed
  | fault (f : Fault)
deriving DecidableEq

end ScriptTree.Yaml
