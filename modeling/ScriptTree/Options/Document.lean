import ScriptTree.Loading
import ScriptTree.Options
import ScriptTree.Yaml.Decode

/-!
# Options in documents

A document holds options as a mapping with at most two fields, each at most once and in any order;
a field that is missing keeps its default, and no other field is allowed. The library that reads the
documents is a parameter.
-/

namespace ScriptTree.Options

inductive Field where
  | constantFolding | firstLine
deriving DecidableEq, Repr

def Field.name : Field → String
  | constantFolding => "constant_folding"
  | firstLine => "first_line"

abbrev Field.Value : Field → Type
  | constantFolding => Bool
  | firstLine => Line

/-- How a field is read. -/
def Field.type : (f : Field) → Primitive f.Value
  | constantFolding => .boolean
  | firstLine => .lineNumber

/-- The options as a record, each field of which has a default. -/
abbrev record : RecordType Options where
  name := "CompilerOptions"
  isStrict := true
  Field := Field
  fields := [.constantFolding, .firstLine]
  mem_fields f := by cases f <;> decide
  label := Field.name
  label_injective {f g} := by cases f <;> cases g <;> decide
  Value := Field.Value
  default
    | .constantFolding => some default.constantFolding
    | .firstLine => some default.firstLine
  make value := ⟨value .constantFolding, value .firstLine⟩

def shape : Shape Options :=
  .record record fun f => .scalar f.type

/-- The options in a text. -/
def ofText (L : Library) (text : String) : Except LoadError Options :=
  L.parse shape "Parsing compiler options" text

/-- The options stored at a path. -/
def ofFile (L : Library) (path : String) (stored : Stored) : Except LoadError Options := do
  let text ← readText path stored
  (ofText L text).mapError (·.during s!"Loading {path}")

/-! ## With the library at hand -/

def ofYaml : String → Except LoadError Options :=
  ofText Yaml.library

def load : String → Stored → Except LoadError Options :=
  ofFile Yaml.library

end ScriptTree.Options
