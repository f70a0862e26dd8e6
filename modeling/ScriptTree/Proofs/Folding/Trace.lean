import Mathlib.Algebra.Ring.Nat
import ScriptTree.Proofs.Evaluation.Kind
import ScriptTree.Proofs.Folding.Simulation
import ScriptTree.Proofs.Syntax.Traversal

/-!
# What folding removes

A fold takes a node and its operands away and leaves a literal.  The operands are literals
themselves, so nothing is lost that could be noticed when the program runs: no name is read or
written, no function is called, no logical operator, no null and no statement disappears.  Every
fold makes a tree smaller, so a tree that is as large as before is the same tree.
-/

namespace ScriptTree

/-! ## Events -/

/-- What can be noticed of a program besides its numbers and booleans. -/
inductive Event where
  | statement (line : Line) (kind : Statement.Kind)
  | identifier (line : Line) (name : String)
  | assign (line : Line) (target : String)
  /-- A call with the number of its arguments, if there is a list of them. -/
  | call (line : Line) (name : String) (arguments : Option Nat)
  | logical (line : Line) (op : BinaryOperator)
  | null (line : Line)
deriving DecidableEq, Repr

namespace Expression

/-- How the events of a node come from those of its parts, in the order of the source. -/
def recording : Interpretation (List Event) where
  literal line value := if value = .null then [.null line] else []
  identifier line name := [.identifier line name]
  assign line target operand := .assign line target :: operand
  binary line op left right :=
    left ++ (if op.isLogical then [.logical line op] else []) ++ right
  minus _ operand := operand
  call line name arguments :=
    .call line name (arguments.map Chain.length) ::
      (arguments.map fun chain => chain.toList.flatten).getD []

/-- The events of an expression from left to right. -/
def events : Expression → List Event :=
  interpret recording

theorem events_literal {line : Line} {value : Value} (h : value ≠ .null) :
    (literal line value).events = [] :=
  if_neg h

theorem events_of_foldable? {e : Expression} {a : Value} (h : e.foldable? = some a) :
    e.events = [] := by
  obtain ⟨ha, line, rfl⟩ := foldable?_eq_some_iff.mp h
  refine events_literal ?_
  rintro rfl
  cases ha

theorem events_call (line : Line) (name : String) (arguments : Option (Chain Expression)) :
    (call line name arguments).events =
      .call line name (arguments.map Chain.length) ::
        (arguments.map fun chain => chain.toList.flatMap events).getD [] := by
  rw [events, interpret_call]
  cases arguments with
  | none => rfl
  | some chain =>
      exact congrArg (fun n => Event.call line name (some n) :: chain.toList.flatMap events)
        (chain.length_map events)

example : (binary 3 .and (identifier 1 "x") (minus 2 (literal 2 .null))).events =
    [.identifier 1 "x", .logical 3 .and, .null 2] := rfl

/-! ## Folding keeps the events -/

theorem events_reduceMinus (line : Line) (operand : Expression) :
    (reduceMinus line operand).events = operand.events := by
  rcases reduceMinus_cases line operand with ⟨a, value, ha, hvalue, hliteral⟩ | ⟨-, hkept⟩
  · obtain ⟨opposite, hopposite, hnumber⟩ :=
      Value.exists_negate_of_isNumber (foldable?_eq_some_iff.mp ha).1
    have hnull : value ≠ .null := by
      rintro rfl
      rw [hvalue] at hopposite
      cases hopposite
      cases hnumber
    rw [hliteral, events_literal hnull, events_of_foldable? ha]
  · rw [hkept]
    rfl

/-- An operator that is replaced is not logical, and both its operands are numbers. -/
theorem events_reduceBinary (line : Line) (op : BinaryOperator) (left right : Expression) :
    (reduceBinary line op left right).events = (binary line op left right).events := by
  rcases reduceBinary_cases line op left right with
    ⟨a, b, value, ha, hb, hop, hvalue, hliteral⟩ | ⟨-, hkept⟩
  · change _ = left.events ++ (if op.isLogical then _ else []) ++ right.events
    rw [hliteral, events_literal (BinaryOperator.ne_null_of_eval hvalue), events_of_foldable? ha,
      events_of_foldable? hb, hop]
    rfl
  · rw [hkept]

theorem events_foldTree (e : Expression) : e.foldTree.events = e.events := by
  induction e with
  | literal line value => rfl
  | identifier line name => rfl
  | assign line target operand ih => exact congrArg (Event.assign line target :: ·) ih
  | binary line op left right ihleft ihright =>
      have hparts : (binary line op left.foldTree right.foldTree).events =
          (binary line op left right).events := by
        change left.foldTree.events ++ _ ++ right.foldTree.events = _
        rw [ihleft, ihright]
        rfl
      exact (events_reduceBinary line op left.foldTree right.foldTree).trans hparts
  | minus line operand ih => exact (events_reduceMinus line operand.foldTree).trans ih
  | call line name arguments ih =>
      rw [foldTree_call, events_call, events_call]
      cases arguments with
      | none => rfl
      | some chain =>
          have hevents : (chain.map foldTree).toList.flatMap events =
              chain.toList.flatMap events := by
            rw [Chain.toList_map, List.flatMap_map, List.flatMap_def, List.flatMap_def,
              List.map_congr_left fun e he => ih chain rfl e he]
          simp only [Option.map_some, Option.getD_some, Chain.length_map, hevents]

/-! ## Size -/

/-- How many nodes there are. -/
def size (e : Expression) : Nat :=
  e.nodes.length

theorem size_binary (line : Line) (op : BinaryOperator) (left right : Expression) :
    (binary line op left right).size = 1 + left.size + right.size := by
  rw [size, nodes, List.cons_append, List.length_cons, List.length_append]
  exact Nat.add_comm _ 1 |>.trans (Nat.add_assoc 1 _ _).symm

theorem size_call (line : Line) (name : String) (arguments : Option (Chain Expression)) :
    (call line name arguments).size =
      1 + ((arguments.map fun chain => chain.toList.map size).getD []).sum := by
  rw [size, nodes_call, List.length_cons, Nat.add_comm]
  cases arguments with
  | none => rfl
  | some chain => exact congrArg (1 + ·) List.length_flatMap

theorem size_pos (e : Expression) : 0 < e.size := by
  cases e with
  | call line name arguments =>
      rw [size_call]
      omega
  | _ => exact Nat.succ_pos _

/-- The size of a list of trees shrinks when trees in it shrink, and only then. -/
theorem sum_size_map_le {f : Expression → Expression} {es : List Expression}
    (h : ∀ e ∈ es, (f e).size ≤ e.size ∧ ((f e).size = e.size → f e = e)) :
    ((es.map f).map size).sum ≤ (es.map size).sum ∧
      (((es.map f).map size).sum = (es.map size).sum → ∀ e ∈ es, f e = e) := by
  induction es with
  | nil => simp
  | cons e es ih =>
      obtain ⟨⟨hle, heq⟩, hrest⟩ := List.forall_mem_cons.mp h
      obtain ⟨hle', heq'⟩ := ih hrest
      simp only [List.map_cons, List.sum_cons, List.forall_mem_cons]
      refine ⟨Nat.add_le_add hle hle', fun hsum => ⟨heq (by omega), heq' (by omega)⟩⟩

/-- Folding makes no tree larger, and every tree that it changes smaller. -/
theorem size_foldTree_le (e : Expression) :
    e.foldTree.size ≤ e.size ∧ (e.foldTree.size = e.size → e.foldTree = e) := by
  induction e with
  | literal line value => exact ⟨Nat.le_refl _, fun _ => rfl⟩
  | identifier line name => exact ⟨Nat.le_refl _, fun _ => rfl⟩
  | assign line target operand ih =>
      obtain ⟨hle, heq⟩ := ih
      refine ⟨Nat.succ_le_succ hle, fun hsize => ?_⟩
      exact congrArg (assign line target) (heq (Nat.succ.inj hsize))
  | binary line op left right ihleft ihright =>
      obtain ⟨hle, heq⟩ := ihleft
      obtain ⟨hle', heq'⟩ := ihright
      change (reduceBinary line op left.foldTree right.foldTree).size ≤ _ ∧
        ((reduceBinary line op left.foldTree right.foldTree).size = _ →
          reduceBinary line op left.foldTree right.foldTree = _)
      rw [size_binary]
      rcases reduceBinary_cases line op left.foldTree right.foldTree with
        ⟨a, b, value, -, -, -, -, hliteral⟩ | ⟨-, hkept⟩
      · have hone : (literal line value).size = 1 := rfl
        have hpos := left.size_pos
        have hpos' := right.size_pos
        rw [hliteral, hone]
        exact ⟨by omega, fun hsize => by omega⟩
      · rw [hkept, size_binary]
        exact ⟨by omega, fun hsize => by rw [heq (by omega), heq' (by omega)]⟩
  | minus line operand ih =>
      obtain ⟨hle, heq⟩ := ih
      have hsize : (minus line operand).size = operand.size + 1 := rfl
      have hsize' : (minus line operand.foldTree).size = operand.foldTree.size + 1 := rfl
      change (reduceMinus line operand.foldTree).size ≤ _ ∧
        ((reduceMinus line operand.foldTree).size = _ → reduceMinus line operand.foldTree = _)
      rcases reduceMinus_cases line operand.foldTree with ⟨a, value, -, -, hliteral⟩ | ⟨-, hkept⟩
      · have hone : (literal line value).size = 1 := rfl
        have hpos := operand.size_pos
        rw [hliteral, hone, hsize]
        exact ⟨by omega, fun hsame => by omega⟩
      · rw [hkept, hsize, hsize']
        exact ⟨by omega, fun hsame => by rw [heq (by omega)]⟩
  | call line name arguments ih =>
      rw [foldTree_call, size_call, size_call]
      cases arguments with
      | none => exact ⟨Nat.le_refl _, fun _ => rfl⟩
      | some chain =>
          obtain ⟨hle, heq⟩ := sum_size_map_le (ih chain rfl)
          refine ⟨Nat.add_le_add_left hle 1, fun hsize => ?_⟩
          have hchain := Chain.map_eq_self (heq (Nat.add_left_cancel hsize))
          rw [Option.map_some, hchain]

end Expression

/-! ## Programs -/

/-- What can be noticed of the statements and expressions of a product, from left to right. -/
def Product.events : Product → List Event :=
  Product.traverse (fun line kind => [.statement line kind]) Expression.events

/-- The kinds of all statements of a product with their lines, from left to right. -/
def Product.statementKinds : Product → List (Line × Statement.Kind) :=
  Product.traverse (fun line kind => [(line, kind)]) fun _ => []

/-- How many statements and nodes of expressions there are in a product. -/
def Product.size (p : Product) : Nat :=
  p.statementKinds.length + (p.expressions.map Expression.size).sum

/-- The body of a function.  Host functions have none that could be folded. -/
def FunctionDefinition.contents (f : FunctionDefinition) : Product :=
  match f.body with
  | .userDefined _ block => .block block
  | .native _ => .block ⟨[]⟩

/-- A part of a program after and before folding: the same can be noticed of it, and it has become
smaller, or else it has stayed the same. -/
structure Trimmed {α : Type} (events : α → List Event) (size : α → Nat) (folded plain : α) :
    Prop where
  events : events folded = events plain
  size_le : size folded ≤ size plain
  size_eq_iff : size folded = size plain ↔ folded = plain

theorem Product.statementKinds_folding (p : Product) :
    (Translation.folding.product p).statementKinds = p.statementKinds := by
  refine p.traverse_ofExpressions _ ?_
  intro e
  rfl

theorem Product.trimmed_folding (p : Product) :
    Trimmed events size (Translation.folding.product p) p := by
  have htrees : ∀ e ∈ p.expressions, e.foldTree.size ≤ e.size ∧
      (e.foldTree.size = e.size → e.foldTree = e) := fun e _ => e.size_foldTree_le
  have hsizes := Expression.sum_size_map_le htrees
  have hsize : (Translation.folding.product p).size =
      p.statementKinds.length +
        ((p.expressions.map Expression.foldTree).map Expression.size).sum := by
    rw [size, statementKinds_folding, Translation.folding, expressions_ofExpressions]
  constructor
  case events => exact p.traverse_ofExpressions _ Expression.events_foldTree
  case size_le =>
    rw [hsize, size]
    exact Nat.add_le_add_left hsizes.1 _
  case size_eq_iff =>
    constructor
    · intro hsame
      rw [hsize, size] at hsame
      exact ofExpressions_eq_self _ (hsizes.2 (Nat.add_left_cancel hsame))
    · exact congrArg size

theorem FunctionDefinition.contents_folding (f : FunctionDefinition) :
    (Translation.folding.definition f).contents = Translation.folding.product f.contents := by
  obtain ⟨name, line, body⟩ := f
  cases body with
  | userDefined parameters block => rfl
  | native run => rfl

theorem FunctionDefinition.trimmed_folding (f : FunctionDefinition) :
    Trimmed (fun f => f.contents.events) (fun f => f.contents.size)
      (Translation.folding.definition f) f := by
  obtain ⟨hevents, hle, heq⟩ := f.contents.trimmed_folding
  rw [← contents_folding] at hevents hle heq
  refine ⟨hevents, hle, heq.trans ⟨?_, congrArg contents⟩⟩
  obtain ⟨name, line, body⟩ := f
  cases body with
  | userDefined parameters block =>
      intro hsame
      have hblock : Translation.folding.block block = block := Product.block.inj hsame
      exact congrArg (fun b => FunctionDefinition.mk name line (.userDefined parameters b)) hblock
  | native run => exact fun _ => rfl

/-- What two sessions of which only the first folds have in common after the same steps. -/
structure KeepsEvents (folding plain : Session × Products) : Prop where
  products : List.Forall₂ (Trimmed Product.events Product.size) folding.2.toList plain.2.toList
  functions : List.Forall₂ (Trimmed (fun f => f.contents.events) fun f => f.contents.size)
    folding.1.functions.toList plain.1.functions.toList

theorem keepsEvents_session (s : Session) (ps : Products) :
    KeepsEvents (Translation.folding.session Options.folding s, Translation.folding.products ps)
      (s, ps) where
  products := by
    rw [Translation.products, Array.toList_map, List.forall₂_map_left_iff, List.forall₂_same]
    exact fun p _ => p.trimmed_folding
  functions := by
    change List.Forall₂ _ (Translation.folding.table s.functions).toList _
    rw [Translation.toList_table, List.forall₂_map_left_iff, List.forall₂_same]
    exact fun f _ => f.trimmed_folding

/-- Folding removes number literals and operators on them, and nothing else.  Every tree and the
body of every function shows the same events, on the same lines and in the same order, whether it
was folded or not; and it is smaller unless it is the very same tree. -/
theorem folding_removes_only_literals (firstLine : Line) (steps : List Step) :
    Option.Rel KeepsEvents (runSteps (.start ⟨true, firstLine⟩) #[] steps)
        (runSteps (.start ⟨false, firstLine⟩) #[] steps) ∧
      (runSteps (.start ⟨false, firstLine⟩) #[] steps).isSome = stepsFit #[] steps := by
  constructor
  · rw [runSteps_folding]
    cases runSteps (.start ⟨false, firstLine⟩) #[] steps with
    | none => exact .none
    | some state => exact .some (keepsEvents_session state.1 state.2)
  · rw [isSome_runSteps, Products.kinds_empty]

end ScriptTree
