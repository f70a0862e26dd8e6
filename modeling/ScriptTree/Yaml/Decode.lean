import ScriptTree.Shape
import ScriptTree.Yaml.Document

/-!
# Reading values from documents

A reader turns a node into a value or says why it cannot. Aliases are followed on the way, but not
without bound: a small document could stand for an enormous one. The place of a fault is that of the
innermost value that was being read, and a mapping that is read field by field counts as one value.
-/

namespace ScriptTree.Yaml

/-- A reader of part of a document. It counts how many aliases may still be followed. -/
abbrev Decode := ReaderT Document (StateT Nat (Except Fault))

namespace Decode

/-- Fails at a place still to be settled. -/
def fail {α : Type} (cause : Cause) : Decode α :=
  throw ⟨cause, none⟩

def failAt {α : Type} (place : Place) (cause : Cause) : Decode α :=
  throw ⟨cause, some place⟩

/-- Settles the place of faults that have none. -/
def within {α : Type} (place : Place) (read : Decode α) : Decode α := fun d aliases =>
  (read d aliases).mapError (·.settle place)

/-- How many aliases may be followed for each unit of the size of a document. -/
def aliasesPerUnit : Nat := 100

def run {α : Type} (read : Decode α) (d : Document) : Except Fault α :=
  (·.1) <$> read d (aliasesPerUnit * d.root.size)

/-! ## Aliases -/

/-- The node that an alias stands for. -/
def target (number : Nat) : Decode Node := fun d aliases =>
  match aliases, d.target? number with
  | 0, _ => .error ⟨.repetitionLimit, some .whole⟩
  | aliases + 1, some node => .ok (node, aliases)
  | _, none => .error ⟨.unknownAlias, none⟩

/-- The node itself, or what it stands for. -/
def resolve : Node → Decode Node
  | .reference _ number => target number
  | node => pure node

/-- Reads a value from a node or from what it stands for, and settles the place of its faults. -/
def value {α : Type} (path : Path) (node : Node) (read : Node → Decode α) : Decode α := do
  let node ← resolve node
  within ⟨node.mark, path⟩ (read node)

/-! ## Scalars -/

/-- A scalar of a type that was named. -/
def ofType (expected : Expected) (text : String) (scalar : Option Scalar) :
    Except Cause Scalar :=
  match scalar with
  | some s => .ok s
  | none => .error (.invalidValue text expected)

/-- What a scalar stands for. The standard types can be named; otherwise a plain scalar is told by
its looks, and one that is not plain or bears another name is text. -/
def scalar (tag : Option Tag) (style : Style) (text : String) : Except Cause Scalar :=
  let plain := if style = .plain then Scalar.ofPlain text else .text text
  match tag with
  | none => .ok plain
  | some tag =>
    if tag = Tag.bool then
      ofType .boolean text ((Scalar.boolean? text).map .boolean)
    else if tag = Tag.int then
      ofType .integer text ((Scalar.integer? text.toList).bind Scalar.ofInteger?)
    else if tag = Tag.float then
      ofType .floating text ((Scalar.floating? text.toList).map .floating)
    else if tag = Tag.null then
      ofType .null text (if Scalar.isNull text then some .null else none)
    else if tag.isLocal then
      .ok plain
    else
      .ok (.text text)

/-- What stands at a node. -/
def found : Node → Except Cause Found
  | .scalar _ p style text => .scalar <$> scalar p.tag style text
  | .sequence .. => .ok .sequence
  | .mapping .. => .ok .mapping
  | .reference .. => .error .unknownAlias

def mismatch {α : Type} (node : Node) (expected : Expected) : Decode α :=
  match found node with
  | .ok found => fail (.invalidType found expected)
  | .error cause => fail cause

/-- Whether a scalar may be read as the value of a type: it is plain, or it keeps its lines and
bears the name of the type. -/
def mayBe (type : Tag) (p : Properties) (style : Style) : Bool :=
  style == .plain || (style == .literal && p.tag == some type)

def boolean? : Node → Option Bool
  | .scalar _ p style text => if mayBe Tag.bool p style then Scalar.boolean? text else none
  | _ => none

def lineNumber? : Node → Option UInt64
  | .scalar _ p style text => if mayBe Tag.int p style then Scalar.unsigned? text.toList else none
  | _ => none

def text? : Node → Option String
  | .scalar _ _ _ text => some text
  | _ => none

def held? {α : Type} : Primitive α → Node → Option α
  | .boolean => boolean?
  | .lineNumber => lineNumber?
  | .text => text?

def expected {α : Type} : Primitive α → Expected
  | .boolean => .boolean
  | .lineNumber => .lineNumber
  | .text => .text

/-- A scalar of a type. -/
def primitive {α : Type} (type : Primitive α) (path : Path) (node : Node) : Decode α :=
  value path node fun node =>
    match held? type node with
    | some a => pure a
    | none => mismatch node (expected type)

/-- Whether a node stands for a missing value: it is plain, and empty or a null. A scalar that
claims to be a null must look like one. -/
def isNull : Node → Except Cause Bool
  | .scalar _ p .plain text =>
    if p.tag = none then .ok (text.isEmpty || Scalar.isNull text)
    else if p.tag = some Tag.null then
      if Scalar.isNull text then .ok true else .error (.invalidValue text .null)
    else .ok false
  | _ => .ok false

/-! ## Collections -/

/-- The items of a sequence. A node that was left out is a sequence without items. -/
def sequence {α : Type} (path : Path) (node : Node) (item : Path → Node → Decode α) :
    Decode (List α) :=
  value path node fun node =>
    match node with
    | .sequence _ _ items => items.zipIdx.mapM fun (node, index) => item (path.item index) node
    | _ => if node.isEmpty then pure [] else mismatch node .sequence

/-- A mapping, read entry by entry. A node that was left out is a mapping without entries. -/
def record {α : Type} (name : String) (path : Path) (node : Node)
    (entries : List (Node × Node) → Decode α) : Decode α :=
  value path node fun node =>
    match node with
    | .mapping _ _ list => entries list
    | _ => if node.isEmpty then entries [] else mismatch node (.record name)

/-- The name of a field of a mapping, which is looked at right away. -/
def fieldName {α : Type} (path : Path) (key : Node) (look : String → Decode α) : Decode α :=
  value path key fun key =>
    match key with
    | .scalar _ _ _ name => look name
    | _ => mismatch key .fieldName

/-! ## Values of any type -/

/-- How many collections may lie one inside the other. -/
def depthLimit : Nat := 128

/-- The keys and values right below a node, with the ways to them. -/
def parts (path : Path) : Node → List (Path × Node)
  | .sequence _ _ items => items.zipIdx.map fun (item, index) => (path.item index, item)
  | .mapping _ _ entries =>
    entries.flatMap fun (key, item) => [(path, key), (path.entry key, item)]
  | .scalar .. | .reference .. => []

/-- A scalar that is read as whatever it looks like. -/
def anyScalar (tag : Option Tag) (style : Style) (text : String) : Decode Scalar :=
  match scalar tag style text with
  | .ok (.wide n) => fail (.invalidType (.scalar (.wide n)) .anyValue)
  | .ok s => pure s
  | .error cause => fail cause

/-- Reads a value of any type, and gives it back if it is a scalar. Collections are only checked;
the first number is how many of them may lie one inside the other. -/
def any : Nat → Path → Node → Decode (Option Scalar)
  | depth, path, node =>
    value path node fun node => do
      if node.properties.tag.any Tag.isApplicationType then fail .namedType
      match node with
      | .scalar _ p style text => some <$> anyScalar p.tag style text
      | _ =>
        match depth with
        | 0 => failAt ⟨node.mark, .root⟩ .recursionLimit
        | depth + 1 =>
          (parts path node).forM fun (path, part) => discard (any depth path part)
          return none

/-! ## Values of declared types -/

def lift {α : Type} : Except Cause α → Decode α
  | .ok a => pure a
  | .error cause => fail cause

/-- The field that an entry with a key is one of. -/
def field? {α : Type} (r : RecordType α) (path : Path) (key : Node) : Decode (Option r.Field) :=
  fieldName path key fun name =>
    match r.ofLabel? name with
    | some f => pure (some f)
    | none => if r.isStrict then fail (.unknownField name r.labels) else pure none

/-- Reads an entry on top of the fields that have been met. The value of a field that was met before
is not looked at. -/
def entry {α : Type} (r : RecordType α) (read : (f : r.Field) → Path → Node → Decode (r.Value f))
    (path : Path) (p : r.Partial) (entry : Node × Node) : Decode r.Partial := do
  let (key, value) := entry
  match ← field? r path key with
  | some f =>
    if (p f).isSome then fail (.duplicateField (r.label f))
    return p.set f (← read f (path.entry key) value)
  | none => return p

/-- Reads a value of a declared type. The number is how many collections may lie one inside the
other from here on. -/
def shape : {α : Type} → Shape α → Nat → Path → Node → Decode α
  | _, .scalar type, _, path, node => primitive type path node
  | _, .optional s, depth, path, node => do
    let node ← resolve node
    if ← lift (isNull node) then return none else some <$> shape s depth path node
  | _, .list s, depth, path, node => sequence path node (shape s (depth - 1))
  | _, .firstOf name variants, depth, path, node => do
    match (← any depth path node).bind fun s => variants.findSome? (·.ofScalar? s) with
    | some a => return a
    | none => fail (.noVariant name)
  | _, .record r shapes, depth, path, node =>
    record r.name path node fun entries => do
      let p ← entries.foldlM (entry r (fun f => shape (shapes f) (depth - 1)) path) .empty
      lift p.complete

end Decode

/-- The library. The syntax of the whole text is settled before any of it is decoded. -/
def library : Library where
  read s text :=
    match Document.ofText? text with
    | some d =>
      ((Decode.shape s Decode.depthLimit .root d.root).run d).mapError .fault
    | none => .error .malformed

end ScriptTree.Yaml
