import ScriptTree.Function
import ScriptTree.Options

/-!
# Sessions

A session is what building one program accumulates: the current line, the functions, and the
diagnostics reported on the way. Building a node only reads the session: it stamps the node with the
current line and, for operators on number literals, puts the result in place of the node.
-/

namespace ScriptTree

/-- Something wrong with the program that does not stop its construction. -/
inductive Diagnostic where
  | duplicateFunction (name : String) (line : Line)
deriving DecidableEq, Repr

def Diagnostic.message : Diagnostic → String
  | .duplicateFunction name line => s!"Function '{name}' is already defined (line {line})"

/-- All diagnostics of a session that failed, in the order of their reports. -/
structure CompileErrors where
  errors : List Diagnostic
deriving DecidableEq, Repr

def CompileErrors.message (e : CompileErrors) : String :=
  s!"Compilation failed with {e.errors.length} error(s)"

/-- The state of building one program. -/
structure Session where
  options : Options
  line : Line
  functions : FunctionTable
  diagnostics : Array Diagnostic

namespace Session

def start (options : Options) : Session :=
  ⟨options, options.firstLine, .empty, #[]⟩

/-! ## Lines -/

def setLine (s : Session) (line : Line) : Session :=
  { s with line }

def advanceLine (s : Session) : Session :=
  { s with line := s.line + 1 }

/-! ## Expressions -/

def literal (s : Session) (value : Value) : Expression :=
  .literal s.line value

def identifier (s : Session) (name : String) : Expression :=
  .identifier s.line name

def assign (s : Session) (target : String) (operand : Expression) : Expression :=
  .assign s.line target operand

/-- The result of an operator on two number literals. Logical operators are left to the run time,
and so is every operator that fails: its failure has to be reported there. -/
def fold? (op : BinaryOperator) (left right : Expression) : Option Value :=
  if op.isLogical then
    none
  else
    match left.foldable?, right.foldable? with
    | some a, some b => (op.eval a b).toOption
    | _, _ => none

/-- An operator on two operands, or its result where folding is on and gives one. -/
def binary (s : Session) (op : BinaryOperator) (left right : Expression) : Expression :=
  match if s.options.constantFolding then fold? op left right else none with
  | some value => .literal s.line value
  | none => .binary s.line op left right

/-- The opposite of a number literal. -/
def foldMinus? (operand : Expression) : Option Value :=
  operand.foldable?.bind fun a => a.negate.toOption

/-- A minus before an operand, or the opposite literal where folding is on and gives one. -/
def minus (s : Session) (operand : Expression) : Expression :=
  match if s.options.constantFolding then foldMinus? operand else none with
  | some value => .literal s.line value
  | none => .minus s.line operand

def call (s : Session) (name : String) (arguments : Option (Chain Expression)) : Expression :=
  .call s.line name arguments

/-! ## Statements -/

/-- An expression evaluated for its effects. -/
def expressionStatement (s : Session) (e : Expression) : Statement :=
  .expression s.line e

def globalStatement (s : Session) (names : Chain String) : Statement :=
  .global s.line names

def ifElse (s : Session) (condition : Expression) (thenBlock : Block)
    (elsifs : Option (Chain Elsif)) (elseBlock : Option Block) : Statement :=
  .ifElse s.line condition thenBlock elsifs elseBlock

/-- A loop that tests before each turn. -/
def whileLoop (s : Session) (condition : Expression) (block : Block) : Statement :=
  .whileLoop s.line condition block

/-- A loop with a start, a test and a step, each of which may be missing. -/
def forLoop (s : Session) (init condition post : Option Expression) (block : Block) : Statement :=
  .forLoop s.line init condition post block

def returnWith (s : Session) (value : Option Expression) : Statement :=
  .returnWith s.line value

def breakLoop (s : Session) : Statement :=
  .breakLoop s.line

def continueLoop (s : Session) : Statement :=
  .continueLoop s.line

/-! ## Functions and diagnostics -/

/-- Records a diagnostic; building goes on. -/
def report (s : Session) (d : Diagnostic) : Session :=
  { s with diagnostics := s.diagnostics.push d }

/-- Adds a function. A taken name is reported at the current line, and the first owner keeps it. -/
def addFunction (s : Session) (f : FunctionDefinition) : Session :=
  match s.functions.offer f with
  | (functions, none) => { s with functions }
  | (functions, some rejected) =>
    { s with functions }.report (.duplicateFunction rejected.name s.line)

/-- Defines a function of the script, at the current line. -/
def define (s : Session) (name : String) (parameters : Option (Chain String)) (block : Block) :
    Session :=
  s.addFunction ⟨name, s.line, .userDefined parameters block⟩

/-- Makes a host function known under a name. -/
def registerNative (s : Session) (name : String) (run : HostFunction) : Session :=
  s.addFunction ⟨name, 0, .native run⟩

def hasErrors (s : Session) : Bool :=
  !s.diagnostics.isEmpty

/-- Ends a session: its functions if nothing was reported, and every report otherwise. -/
def finish (s : Session) : Except CompileErrors FunctionTable :=
  if s.hasErrors then .error ⟨s.diagnostics.toList⟩ else .ok s.functions

end Session

end ScriptTree
