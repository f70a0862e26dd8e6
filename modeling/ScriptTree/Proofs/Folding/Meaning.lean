import ScriptTree.Proofs.Folding.Simulation

/-!
# Folding keeps the meaning

What running an expression means is fixed for literals and for operators that are not logical.  All
other nodes may mean anything that is made of the meanings of their parts: they may read and change
the state, fail, or run their parts in any order and any number of times.  Under every such meaning
a tree and its folded form behave alike, down to the line at which a failure arises.
-/

namespace ScriptTree

/-- Running code on a state of type `σ` ends with a result or with an error of type `ε`, and with
the state as it was left. -/
abbrev Effect (σ ε : Type) : Type → Type := ExceptT ε (StateM σ)

/-- The choices that are open to a run time. -/
structure Semantics (σ ε : Type) where
  /-- The error of an operator without a result, at the line of its node. -/
  fault : Line → EvalError → ε
  identifier : Line → String → Effect σ ε Value
  assign : Line → String → Effect σ ε Value → Effect σ ε Value
  logical : Line → BinaryOperator → Effect σ ε Value → Effect σ ε Value → Effect σ ε Value
  call : Line → String → Option (Chain (Effect σ ε Value)) → Effect σ ε Value

namespace Semantics

variable {σ ε : Type} (m : Semantics σ ε)

/-- A result is handed on; an error is raised at a line. -/
def conclude (line : Line) : Evaluated → Effect σ ε Value
  | .ok value => pure value
  | .error e => throw (m.fault line e)

/-- Literals leave the state alone, and operators that are not logical run their operands from left
to right before they are applied. -/
def interpretation : Expression.Interpretation (Effect σ ε Value) where
  literal _ value := pure value
  identifier := m.identifier
  assign := m.assign
  binary line op left right :=
    if op.isLogical then
      m.logical line op left right
    else do
      let a ← left
      let b ← right
      m.conclude line (op.eval a b)
  minus line operand := do
    let a ← operand
    m.conclude line a.negate
  call := m.call

def run (e : Expression) : Effect σ ε Value :=
  e.interpret m.interpretation

theorem run_literal (line : Line) (value : Value) :
    m.run (.literal line value) = pure value := rfl

theorem run_minus (line : Line) (operand : Expression) :
    m.run (.minus line operand) = (m.run operand >>= fun a => m.conclude line a.negate) := rfl

theorem run_logical {op : BinaryOperator} (hop : op.isLogical = true) (line : Line)
    (left right : Expression) :
    m.run (.binary line op left right) = m.logical line op (m.run left) (m.run right) :=
  if_pos hop

theorem run_binary {op : BinaryOperator} (hop : op.isLogical = false) (line : Line)
    (left right : Expression) :
    m.run (.binary line op left right) =
      (m.run left >>= fun a => m.run right >>= fun b =>
        m.conclude line (op.eval a b)) :=
  if_neg (Bool.eq_false_iff.mp hop)

theorem run_call (line : Line) (name : String) (arguments : Option (Chain Expression)) :
    m.run (.call line name arguments) =
      m.call line name (arguments.map (Chain.map m.run)) :=
  Expression.interpret_call m.interpretation line name arguments

/-- The opposite of a number literal means what a minus before the literal means. -/
theorem run_reduceMinus (line : Line) (operand : Expression) :
    m.run (.reduceMinus line operand) = m.run (.minus line operand) := by
  rcases Expression.reduceMinus_cases line operand with ⟨a, value, ha, hvalue, h⟩ | ⟨-, h⟩
  · obtain ⟨-, l, rfl⟩ := Expression.foldable?_eq_some_iff.mp ha
    rw [h, run_minus, run_literal, run_literal, pure_bind, hvalue]
    rfl
  · rw [h]

/-- The result of an operator on number literals means what the operator on the literals means. -/
theorem run_reduceBinary (line : Line) (op : BinaryOperator) (left right : Expression) :
    m.run (.reduceBinary line op left right) = m.run (.binary line op left right) := by
  rcases Expression.reduceBinary_cases line op left right with
    ⟨a, b, value, ha, hb, hop, hvalue, h⟩ | ⟨-, h⟩
  · obtain ⟨-, l, rfl⟩ := Expression.foldable?_eq_some_iff.mp ha
    obtain ⟨-, r, rfl⟩ := Expression.foldable?_eq_some_iff.mp hb
    -- Both operands are literals: running them cannot fail and leaves the state alone.
    rw [h, run_binary m hop, run_literal, run_literal, run_literal, pure_bind, pure_bind,
      hvalue]
    rfl
  · rw [h]

/-- Folding a tree keeps its meaning. -/
theorem run_foldTree (e : Expression) : m.run e.foldTree = m.run e := by
  induction e with
  | literal line value => rfl
  | identifier line name => rfl
  | assign line target operand ih => exact congrArg (m.assign line target) ih
  | binary line op left right ihleft ihright =>
      have hroot := m.run_reduceBinary line op left.foldTree right.foldTree
      cases hop : op.isLogical with
      | true =>
          rw [run_logical m hop, ← ihleft, ← ihright, ← run_logical m hop, ← hroot]
          rfl
      | false =>
          rw [run_binary m hop, ← ihleft, ← ihright, ← run_binary m hop, ← hroot]
          rfl
  | minus line operand ih =>
      have hroot := m.run_reduceMinus line operand.foldTree
      rw [run_minus, ← ih, ← run_minus, ← hroot]
      rfl
  | call line name arguments ih =>
      have harguments : (arguments.map (Chain.map Expression.foldTree)).map (Chain.map m.run) =
          arguments.map (Chain.map m.run) := by
        rw [Option.map_map]
        refine Option.map_congr fun chain hchain => ?_
        change (chain.map Expression.foldTree).map m.run = chain.map m.run
        rw [Chain.map_map]
        exact Chain.map_congr (ih chain hchain)
      rw [Expression.foldTree_call, run_call, run_call, harguments]

end Semantics

/-- The trees that a session builds behave alike whether it folds or not: under every meaning, from
every state, they end with the same value or the same error, and with the same state.  The steps
may build any number of trees, so this holds of the one tree of a script as of all its parts; and
there are trees to speak of as soon as every step finds its parts. -/
theorem folding_keeps_meaning {σ ε : Type} (m : Semantics σ ε) (firstLine : Line)
    (steps : List Step) :
    Option.Rel
        (fun folding plain : Session × Products => ∀ r : Ref,
          Option.Rel (fun e e' => ∀ state : σ, (m.run e).run state = (m.run e').run state)
            (folding.2.expression? r) (plain.2.expression? r))
        (runSteps (.start ⟨true, firstLine⟩) #[] steps)
        (runSteps (.start ⟨false, firstLine⟩) #[] steps) ∧
      (runSteps (.start ⟨false, firstLine⟩) #[] steps).isSome = stepsFit #[] steps := by
  constructor
  · rw [runSteps_folding]
    cases runSteps (.start ⟨false, firstLine⟩) #[] steps with
    | none => exact .none
    | some state =>
        refine .some fun r => ?_
        change Option.Rel _ ((Translation.folding.products state.2).expression? r) _
        rw [Products.expression?, Products.expression?, Translation.find?_products]
        cases state.2.find? .expression r with
        | none => exact .none
        | some e => exact .some fun start => congrFun (m.run_foldTree e) start
  · rw [isSome_runSteps, Products.kinds_empty]

end ScriptTree
