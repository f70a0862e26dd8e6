import ScriptTree.Session

/-!
# Construction scripts

A program is built by a sequence of steps, each of which moves the line, makes one product out of
earlier products, or adds to the session. Products are numbered in the order in which they are made,
and a step names its parts by number, so a whole construction is a list of steps. Running such a
list on several sessions shows what depends on a session and what does not.
-/

namespace ScriptTree

/-- What a step leaves behind for later steps. -/
inductive Product where
  | expression (e : Expression)
  | statement (s : Statement)
  | elsif (c : Elsif)
  | block (b : Block)
  | names (list : Chain String)
  | arguments (list : Chain Expression)
  | statements (list : Chain Statement)
  | elsifs (list : Chain Elsif)

/-- Products of one sort are compared as trees, products of two sorts differ. -/
def Product.beq : Product → Product → Bool
  | .expression a, .expression b => a == b
  | .statement a, .statement b => a == b
  | .elsif a, .elsif b => a == b
  | .block a, .block b => a == b
  | .names a, .names b => a == b
  | .arguments a, .arguments b => a == b
  | .statements a, .statements b => a == b
  | .elsifs a, .elsifs b => a == b
  | _, _ => false

instance : BEq Product := ⟨Product.beq⟩

/-- The number of an earlier product. -/
abbrev Ref := Nat

abbrev Products := Array Product

/-- The kinds of parts that a step may ask for, each with the type of what it holds. -/
inductive Part : Type → Type where
  | expression : Part Expression
  | statement : Part Statement
  | elsif : Part Elsif
  | block : Part Block
  | names : Part (Chain String)
  | arguments : Part (Chain Expression)
  | statements : Part (Chain Statement)
  | elsifs : Part (Chain Elsif)

/-- What a product holds, if it is of a kind. -/
def Part.content? {α : Type} : Part α → Product → Option α
  | .expression => fun | .expression e => some e | _ => none
  | .statement => fun | .statement s => some s | _ => none
  | .elsif => fun | .elsif c => some c | _ => none
  | .block => fun | .block b => some b | _ => none
  | .names => fun | .names list => some list | _ => none
  | .arguments => fun | .arguments list => some list | _ => none
  | .statements => fun | .statements list => some list | _ => none
  | .elsifs => fun | .elsifs list => some list | _ => none

namespace Products

/-- What the product with a number holds, if there is one and it is of a kind. -/
def find? {α : Type} (ps : Products) (part : Part α) (r : Ref) : Option α :=
  ps[r]?.bind part.content?

abbrev expression? (ps : Products) (r : Ref) : Option Expression :=
  ps.find? .expression r

abbrev block? (ps : Products) (r : Ref) : Option Block :=
  ps.find? .block r

abbrev names? (ps : Products) (r : Ref) : Option (Chain String) :=
  ps.find? .names r

end Products

/-- Finds a part that may be left out: nothing is asked for, or what is asked for is there. -/
def optionally {α : Type} (find : Ref → Option α) : Option Ref → Option (Option α)
  | none => some none
  | some r => (find r).map some

/-- One step of a construction. -/
inductive Step where
  | setLine (line : Line)
  | advanceLine
  | literal (value : Value)
  | identifier (name : String)
  | assign (target : String) (operand : Ref)
  | binary (op : BinaryOperator) (left right : Ref)
  | minus (operand : Ref)
  | call (name : String) (arguments : Option Ref)
  | newNames (name : String)
  | appendName (list : Ref) (name : String)
  | newArguments (first : Ref)
  | appendArgument (list item : Ref)
  | newStatements (first : Ref)
  | appendStatement (list : Option Ref) (item : Ref)
  | newElsifs (first : Ref)
  | appendElsif (list item : Ref)
  | elsif (condition block : Ref)
  | block (statements : Option Ref)
  | expressionStatement (expression : Ref)
  | globalStatement (names : Ref)
  | ifElse (condition thenBlock : Ref) (elsifs elseBlock : Option Ref)
  | whileLoop (condition block : Ref)
  | forLoop (init condition post : Option Ref) (block : Ref)
  | returnWith (value : Option Ref)
  | breakLoop
  | continueLoop
  | define (name : String) (parameters : Option Ref) (block : Ref)
  | registerNative (name : String) (run : HostFunction)
  | report (diagnostic : Diagnostic)

namespace Step

/-- The session after a step that acts on the session and makes no product. It is `none` for the
other steps, and where a part is not there. -/
def session? (s : Session) (ps : Products) : Step → Option Session
  | .setLine line => some (s.setLine line)
  | .advanceLine => some s.advanceLine
  | .define name parameters body => do
    let parameters ← optionally (ps.find? .names) parameters
    return s.define name parameters (← ps.find? .block body)
  | .registerNative name run => some (s.registerNative name run)
  | .report diagnostic => some (s.report diagnostic)
  | _ => none

/-- What a step makes that only reads the session. It is `none` for the other steps, and where a
part is not there. -/
def product? (s : Session) (ps : Products) : Step → Option Product
  | .literal value => some (.expression (s.literal value))
  | .identifier name => some (.expression (s.identifier name))
  | .assign target operand => do
    return .expression (s.assign target (← ps.find? .expression operand))
  | .binary op left right => do
    let left ← ps.find? .expression left
    let right ← ps.find? .expression right
    return .expression (s.binary op left right)
  | .minus operand => do
    return .expression (s.minus (← ps.find? .expression operand))
  | .call name arguments => do
    return .expression (s.call name (← optionally (ps.find? .arguments) arguments))
  | .newNames name => some (.names (.singleton name))
  | .appendName list name => do
    return .names ((← ps.find? .names list).append name)
  | .newArguments first => do
    return .arguments (.singleton (← ps.find? .expression first))
  | .appendArgument list item => do
    let list ← ps.find? .arguments list
    return .arguments (list.append (← ps.find? .expression item))
  | .newStatements first => do
    return .statements (.singleton (← ps.find? .statement first))
  | .appendStatement list item => do
    let list ← optionally (ps.find? .statements) list
    return .statements (Chain.appendTo list (← ps.find? .statement item))
  | .newElsifs first => do
    return .elsifs (.singleton (← ps.find? .elsif first))
  | .appendElsif list item => do
    let list ← ps.find? .elsifs list
    return .elsifs (list.append (← ps.find? .elsif item))
  | .elsif condition body => do
    let condition ← ps.find? .expression condition
    return .elsif ⟨condition, ← ps.find? .block body⟩
  | .block statements => do
    return .block (.ofChain (← optionally (ps.find? .statements) statements))
  | .expressionStatement expression => do
    return .statement (s.expressionStatement (← ps.find? .expression expression))
  | .globalStatement names => do
    return .statement (s.globalStatement (← ps.find? .names names))
  | .ifElse condition thenBlock elsifs elseBlock => do
    let condition ← ps.find? .expression condition
    let thenBlock ← ps.find? .block thenBlock
    let elsifs ← optionally (ps.find? .elsifs) elsifs
    let elseBlock ← optionally (ps.find? .block) elseBlock
    return .statement (s.ifElse condition thenBlock elsifs elseBlock)
  | .whileLoop condition body => do
    let condition ← ps.find? .expression condition
    return .statement (s.whileLoop condition (← ps.find? .block body))
  | .forLoop init condition post body => do
    let init ← optionally (ps.find? .expression) init
    let condition ← optionally (ps.find? .expression) condition
    let post ← optionally (ps.find? .expression) post
    return .statement (s.forLoop init condition post (← ps.find? .block body))
  | .returnWith value => do
    return .statement (s.returnWith (← optionally (ps.find? .expression) value))
  | .breakLoop => some (.statement s.breakLoop)
  | .continueLoop => some (.statement s.continueLoop)
  | _ => none

/-- Runs a step. It fails, changing nothing, where a part is not there or is of another sort. -/
def run (s : Session) (ps : Products) (step : Step) : Option (Session × Products) :=
  match step.session? s ps with
  | some s' => some (s', ps)
  | none => (step.product? s ps).map fun p => (s, ps.push p)

end Step

def runSteps (s : Session) (ps : Products) (steps : List Step) : Option (Session × Products) :=
  steps.foldlM (fun (s, ps) step => step.run s ps) (s, ps)

end ScriptTree
