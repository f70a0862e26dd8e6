import ScriptTree.Evaluation
import ScriptTree.Statement
import Std.Data.HashMap

/-!
# Functions

Function definitions and the table that holds them. A name belongs to the first definition that
takes it: the table refuses every later one, stays as it is and hands the definition back. The
definitions are kept in the order in which they were accepted, and an index leads from each name to
its place in that order.
-/

namespace ScriptTree

/-- A function that the host program lends to scripts. -/
abbrev HostFunction := List Value → Evaluated

/-- What a function name stands for. -/
inductive FunctionBody where
  | userDefined (parameters : Option (Chain String)) (block : Block)
  | native (run : HostFunction)

/-- A function with its name and the line of its definition; native functions have line zero. -/
structure FunctionDefinition where
  name : String
  line : Line
  body : FunctionBody

namespace FunctionDefinition

def isUserDefined (f : FunctionDefinition) : Bool :=
  match f.body with
  | .userDefined _ _ => true
  | .native _ => false

/-- The names of the parameters in order; native functions declare none. -/
def parameterNames (f : FunctionDefinition) : List String :=
  match f.body with
  | .userDefined (some parameters) _ => parameters.toList
  | .userDefined none _ | .native _ => []

end FunctionDefinition

/-- The functions of a script by name. -/
structure FunctionTable where
  definitions : Array FunctionDefinition
  index : Std.HashMap String Nat

namespace FunctionTable

def empty : FunctionTable :=
  ⟨#[], {}⟩

/-- The definition that owns a name. -/
def lookup (t : FunctionTable) (name : String) : Option FunctionDefinition :=
  t.index[name]?.bind fun slot => t.definitions[slot]?

def contains (t : FunctionTable) (name : String) : Bool :=
  t.index.contains name

/-- The table after a definition was offered to it, and the definition again if it was handed back
because its name is taken. -/
def offer (t : FunctionTable) (f : FunctionDefinition) :
    FunctionTable × Option FunctionDefinition :=
  if t.contains f.name then
    (t, some f)
  else
    (⟨t.definitions.push f, t.index.insert f.name t.definitions.size⟩, none)

/-- Adds a definition, or hands it back. -/
def register (t : FunctionTable) (f : FunctionDefinition) :
    Except FunctionDefinition FunctionTable :=
  match t.offer f with
  | (t, none) => .ok t
  | (_, some rejected) => .error rejected

/-- The definitions, the most recent one first. -/
def toList (t : FunctionTable) : List FunctionDefinition :=
  t.definitions.toList.reverse

def size (t : FunctionTable) : Nat :=
  t.definitions.size

def isEmpty (t : FunctionTable) : Bool :=
  t.definitions.isEmpty

end FunctionTable

end ScriptTree
