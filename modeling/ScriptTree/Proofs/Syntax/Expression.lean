import ScriptTree.Expression

/-!
# Recursion and induction on expressions

The arguments of a call nest expressions inside optional chains, so neither a recursive function
nor an induction sees them directly.  An interpretation says what every node means in terms of the
meanings of its parts; it is carried through whole trees once, and the functions on trees are
instances of it.  The induction principle speaks of the arguments of a call by membership.
-/

namespace ScriptTree

namespace Expression

/-- A meaning for each kind of node, given the meanings of its parts. -/
structure Interpretation (α : Type) where
  literal : Line → Value → α
  identifier : Line → String → α
  assign : Line → String → α → α
  binary : Line → BinaryOperator → α → α → α
  minus : Line → α → α
  call : Line → String → Option (Chain α) → α

variable {α : Type} (I : Interpretation α)

mutual

/-- The meaning of a tree, from the leaves up. -/
def interpret : Expression → α
  | .literal line value => I.literal line value
  | .identifier line name => I.identifier line name
  | .assign line target operand => I.assign line target (interpret operand)
  | .binary line op left right => I.binary line op (interpret left) (interpret right)
  | .minus line operand => I.minus line (interpret operand)
  | .call line name none => I.call line name none
  | .call line name (some ⟨first, rest⟩) =>
    I.call line name (some ⟨interpret first, interpretList rest⟩)

def interpretList : List Expression → List α
  | [] => []
  | e :: es => interpret e :: interpretList es

end

theorem interpretList_eq_map (es : List Expression) :
    interpretList I es = es.map (interpret I) := by
  induction es with
  | nil => rfl
  | cons e es ih => simp only [interpretList, List.map_cons, ih]

theorem interpret_call (line : Line) (name : String)
    (arguments : Option (Chain Expression)) :
    interpret I (.call line name arguments) =
      I.call line name (arguments.map (Chain.map (interpret I))) := by
  cases arguments with
  | none => rfl
  | some chain =>
      simp only [interpret, interpretList_eq_map, Option.map_some, Chain.map]

/-- Induction on expressions; every argument of a call may be assumed to have the property. -/
@[elab_as_elim, induction_eliminator]
theorem induction {motive : Expression → Prop}
    (literal : ∀ line value, motive (.literal line value))
    (identifier : ∀ line name, motive (.identifier line name))
    (assign : ∀ line target operand,
      motive operand → motive (.assign line target operand))
    (binary : ∀ line op left right,
      motive left → motive right → motive (.binary line op left right))
    (minus : ∀ line operand, motive operand → motive (.minus line operand))
    (call : ∀ line name arguments,
      (∀ chain ∈ arguments, ∀ e ∈ chain.toList, motive e) →
        motive (.call line name arguments))
    (e : Expression) : motive e := by
  refine @Expression.rec motive
    (fun arguments => ∀ chain ∈ arguments, ∀ e ∈ chain.toList, motive e)
    (fun chain => ∀ e ∈ chain.toList, motive e)
    (fun es => ∀ e ∈ es, motive e)
    literal identifier assign binary minus call ?_ ?_ ?_ ?_ ?_ e
  · intro chain hchain
    cases hchain
  · intro chain ih other hother
    cases hother
    exact ih
  · intro first rest hfirst hrest
    exact List.forall_mem_cons.mpr ⟨hfirst, hrest⟩
  · exact fun e he => by cases he
  · intro first rest hfirst hrest
    exact List.forall_mem_cons.mpr ⟨hfirst, hrest⟩

/-! ## The nodes of a tree -/

mutual

/-- All nodes of a tree with what hangs below them, the outermost node first. -/
def nodes : Expression → List Expression
  | .literal line value => [.literal line value]
  | .identifier line name => [.identifier line name]
  | .assign line target operand => .assign line target operand :: nodes operand
  | .binary line op left right => .binary line op left right :: nodes left ++ nodes right
  | .minus line operand => .minus line operand :: nodes operand
  | .call line name none => [.call line name none]
  | .call line name (some ⟨first, rest⟩) =>
    .call line name (some ⟨first, rest⟩) :: nodes first ++ nodesList rest

def nodesList : List Expression → List Expression
  | [] => []
  | e :: es => nodes e ++ nodesList es

end

theorem nodesList_eq_flatMap (es : List Expression) : nodesList es = es.flatMap nodes := by
  induction es with
  | nil => rfl
  | cons e es ih => rw [nodesList, List.flatMap_cons, ih]

theorem nodes_call (line : Line) (name : String) (arguments : Option (Chain Expression)) :
    (call line name arguments).nodes =
      .call line name arguments ::
        (arguments.map fun chain => chain.toList.flatMap nodes).getD [] := by
  cases arguments with
  | none => rfl
  | some chain =>
      rw [nodes, nodesList_eq_flatMap]
      rfl

end Expression

end ScriptTree
