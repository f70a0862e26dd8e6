import ScriptTree.Shape

/-!
# Loading documents

What can stand in the way between a path and the value that is stored there: the file, the syntax of
its text, a value of the wrong type, or content that makes no sense as a whole. An error tells what
was being done, from the outside in, and then the cause.
-/

namespace ScriptTree

/-! ## Files -/

/-- What is found at a path. -/
inductive Stored where
  | nothing
  | directory
  | file (content : ByteArray)

/-- Why no text could be read from a path. -/
inductive ReadError where
  | notFound | isDirectory | notText
deriving DecidableEq, Repr

def ReadError.message : ReadError → String
  | .notFound => "No such file or directory (os error 2)"
  | .isDirectory => "Is a directory (os error 21)"
  | .notText => "stream did not contain valid UTF-8"

/-- The text that is stored. -/
def Stored.text : Stored → Except ReadError String
  | nothing => .error .notFound
  | directory => .error .isDirectory
  | file content =>
    match String.fromUTF8? content with
    | some text => .ok text
    | none => .error .notText

/-! ## Errors -/

/-- What stood in the way. -/
inductive LoadProblem where
  | unreadable (e : ReadError)
  /-- The text is not one well-formed document. -/
  | malformed
  | fault (f : Yaml.Fault)
  | noCases (path : String)
  | duplicateCase (name path : String)
deriving DecidableEq

/-- The wording of a problem. What is wrong with the syntax is not told. -/
def LoadProblem.message? : LoadProblem → Option String
  | unreadable e => some e.message
  | malformed => none
  | fault f => some f.message
  | noCases path => some s!"No fold cases found in {path}"
  | duplicateCase name path => some s!"Duplicate fold case '{name}' in {path}"

/-- A problem, and what was being done when it arose, from the outside in. -/
structure LoadError where
  context : List String
  problem : LoadProblem
deriving DecidableEq

namespace LoadError

def plain (problem : LoadProblem) : LoadError :=
  ⟨[], problem⟩

/-- The error as it is told from further outside. -/
def during (activity : String) (e : LoadError) : LoadError :=
  ⟨activity :: e.context, e.problem⟩

def message (e : LoadError) : String :=
  ": ".intercalate (e.context ++ e.problem.message?.toList)

end LoadError

/-! ## Documents -/

def LoadProblem.ofFailure : Yaml.Failure → LoadProblem
  | .malformed => .malformed
  | .fault f => .fault f

def readText (path : String) (stored : Stored) : Except LoadError String :=
  stored.text.mapError fun e => (LoadError.plain (.unreadable e)).during s!"Reading {path}"

/-- Reads a value of a declared type from a text. -/
def Library.parse {α : Type} (L : Library) (s : Shape α) (activity text : String) :
    Except LoadError α :=
  (L.read s text).mapError fun e => (LoadError.plain (.ofFailure e)).during activity

end ScriptTree
