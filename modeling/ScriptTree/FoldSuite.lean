import ScriptTree.Loading
import ScriptTree.Session
import ScriptTree.Yaml.Decode

/-!
# Suites of fold cases

A suite lists operators on literals with the values they are expected to fold to. It is stored as a
document with a list of binary cases and a list of cases of the minus; other fields are ignored, at
every level. Every case has a name of its own.
-/

namespace ScriptTree

/-! ## Literals -/

/-- A literal of a case. -/
inductive Literal where
  | integer (n : Int64)
  | double (x : Float)
  | boolean (b : Bool)
deriving DecidableEq

namespace Literal

def value : Literal → Value
  | integer n => .integer n
  | double x => .double x
  | boolean b => .boolean b

/-- The variants of a literal. An integer is tried before a double, since any integer can be taken
for a double. -/
def variants : List (Variant Literal) :=
  [⟨.integer, .integer⟩, ⟨.double, .double⟩, ⟨.boolean, .boolean⟩]

/-- The literal that a scalar is read as, if it can be taken for one. -/
def ofScalar? (s : Yaml.Scalar) : Option Literal :=
  variants.findSome? (·.ofScalar? s)

def shape : Shape Literal :=
  .firstOf "Literal" variants

end Literal

/-! ## Cases -/

/-- A case of a binary operator. Without an expected literal the operator must not fold. -/
structure BinaryCase where
  name : String
  operator : String
  left : Literal
  right : Literal
  expected : Option Literal
deriving DecidableEq

/-- A case of the minus. -/
structure NegateCase where
  name : String
  operand : Literal
  expected : Option Literal
deriving DecidableEq

structure FoldSuite where
  binary : List BinaryCase
  negate : List NegateCase
deriving DecidableEq

/-- The tree that a session builds for a case, if the operator is known. -/
def BinaryCase.build? (c : BinaryCase) (s : Session) : Option Expression :=
  (BinaryOperator.ofSymbol? c.operator).map fun op =>
    s.binary op (s.literal c.left.value) (s.literal c.right.value)

def NegateCase.build (c : NegateCase) (s : Session) : Expression :=
  s.minus (s.literal c.operand.value)

/-! ## Declarations -/

inductive BinaryCase.Field where
  | name | operator | left | right | expected
deriving DecidableEq

abbrev BinaryCase.Field.Value : Field → Type
  | name | operator => String
  | left | right => Literal
  | expected => Option Literal

/-- A case of a binary operator as a record, of which only the expected literal may be missing. -/
abbrev BinaryCase.record : RecordType BinaryCase where
  name := "BinaryCase"
  isStrict := false
  Field := Field
  fields := [.name, .operator, .left, .right, .expected]
  mem_fields f := by cases f <;> decide
  label
    | .name => "name"
    | .operator => "op"
    | .left => "left"
    | .right => "right"
    | .expected => "expected"
  label_injective {f g} := by cases f <;> cases g <;> decide
  Value := Field.Value
  default
    | .name | .operator | .left | .right => none
    | .expected => some none
  make value :=
    ⟨value .name, value .operator, value .left, value .right, value .expected⟩

def BinaryCase.shape : Shape BinaryCase :=
  .record record fun
    | .name | .operator => .scalar .text
    | .left | .right => Literal.shape
    | .expected => .optional Literal.shape

inductive NegateCase.Field where
  | name | operand | expected
deriving DecidableEq

abbrev NegateCase.Field.Value : Field → Type
  | name => String
  | operand => Literal
  | expected => Option Literal

/-- A case of the minus as a record, of which only the expected literal may be missing. -/
abbrev NegateCase.record : RecordType NegateCase where
  name := "NegateCase"
  isStrict := false
  Field := Field
  fields := [.name, .operand, .expected]
  mem_fields f := by cases f <;> decide
  label
    | .name => "name"
    | .operand => "operand"
    | .expected => "expected"
  label_injective {f g} := by cases f <;> cases g <;> decide
  Value := Field.Value
  default
    | .name | .operand => none
    | .expected => some none
  make value := ⟨value .name, value .operand, value .expected⟩

def NegateCase.shape : Shape NegateCase :=
  .record record fun
    | .name => .scalar .text
    | .operand => Literal.shape
    | .expected => .optional Literal.shape

namespace FoldSuite

inductive Field where
  | binary | negate
deriving DecidableEq

abbrev Field.Value : Field → Type
  | binary => List BinaryCase
  | negate => List NegateCase

/-- A suite as a record. A list that is missing is empty. -/
abbrev record : RecordType FoldSuite where
  name := "FoldSuite"
  isStrict := false
  Field := Field
  fields := [.binary, .negate]
  mem_fields f := by cases f <;> decide
  label
    | .binary => "binary"
    | .negate => "negate"
  label_injective {f g} := by cases f <;> cases g <;> decide
  Value := Field.Value
  default
    | .binary => some ([] : List BinaryCase)
    | .negate => some ([] : List NegateCase)
  make value := ⟨value .binary, value .negate⟩

def shape : Shape FoldSuite :=
  .record record fun
    | .binary => .list BinaryCase.shape
    | .negate => .list NegateCase.shape

/-! ## Suites that make sense -/

def length (s : FoldSuite) : Nat :=
  s.binary.length + s.negate.length

def isEmpty (s : FoldSuite) : Bool :=
  s.length == 0

def names (s : FoldSuite) : List String :=
  s.binary.map (·.name) ++ s.negate.map (·.name)

/-- The first name of a list that equals the next one. -/
def firstRepeated? : List String → Option String
  | a :: b :: names => if a = b then some a else firstRepeated? (b :: names)
  | _ => none

/-- The least name that several cases have. Equal names are neighbours once the names are sorted. -/
def duplicate? (s : FoldSuite) : Option String :=
  firstRepeated? (s.names.mergeSort (· ≤ ·))

/-- A suite must have a case, and no two of one name. -/
def check (path : String) (s : FoldSuite) : Except LoadError FoldSuite :=
  if s.isEmpty then
    .error (.plain (.noCases path))
  else
    match s.duplicate? with
    | some name => .error (.plain (.duplicateCase name path))
    | none => .ok s

/-- The suite stored at a path, as a library reads it. -/
def ofFile (L : Library) (path : String) (stored : Stored) : Except LoadError FoldSuite := do
  let text ← readText path stored
  let suite ← L.parse shape s!"Parsing {path}" text
  check path suite

def load : String → Stored → Except LoadError FoldSuite :=
  ofFile Yaml.library

end FoldSuite

end ScriptTree
