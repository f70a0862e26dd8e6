import ScriptTree.Proofs.Folding.Decision
import ScriptTree.Proofs.Folding.NormalForm

/-!
# The tree that folding sessions build

A tree is built by one constructor after the other, and a failure that none of them expects would
end the construction.  No tree meets one.  So for every description there is one tree that all
sessions with folding build: the folded description.
-/

namespace ScriptTree

/-- Building something on a session, or stopping at an unexpected failure. -/
abbrev StrictBuilding : Type → Type := StateT Session (Except EvalError)

/-! ## Construction that may stop -/

section Pieces

variable {α β : Type}

def strictAtLine (line : Line) (build : Session → Except EvalError α) : StrictBuilding α := do
  modify fun s => s.setLine line
  build (← get)

def strictChain (items : Chain (StrictBuilding α)) : StrictBuilding (Chain α) := do
  let first ← items.head
  items.tail.foldlM (fun list item => return list.append (← item)) (.singleton first)

def strictOptional : Option (StrictBuilding α) → StrictBuilding (Option α)
  | none => return none
  | some part => return some (← part)

/-- On every session the construction comes to its end, and does what `m` does. -/
def Completes (strict : StrictBuilding α) (m : Building α) : Prop :=
  ∀ s : Session, strict.run s = .ok (m.run s)

theorem Completes.value (a : α) : Completes (pure a) (pure a) :=
  fun _ => rfl

theorem Completes.bind {strict : StrictBuilding α} {m : Building α}
    {strictNext : α → StrictBuilding β} {next : α → Building β} (hm : Completes strict m)
    (hnext : ∀ a, Completes (strictNext a) (next a)) :
    Completes (strict >>= strictNext) (m >>= next) := by
  intro s
  rw [StateT.run_bind, StateT.run_bind, hm s]
  exact hnext _ _

theorem completes_atLine {line : Line} {strict : Session → Except EvalError α}
    {build : Session → α} (h : ∀ s, strict s = .ok (build s)) :
    Completes (strictAtLine line strict) (atLine line build) := by
  intro s
  change ((strict (s.setLine line)).map fun a => (a, s.setLine line)) = _
  rw [h]
  rfl

private theorem completes_foldlM {strict : α → StrictBuilding β} {m : α → Building β}
    {items : List α} (h : ∀ a ∈ items, Completes (strict a) (m a)) (list : Chain β) :
    Completes
      ((items.map strict).foldlM (fun list item => return list.append (← item)) list)
      ((items.map m).foldlM (fun list item => return list.append (← item)) list) := by
  induction items generalizing list with
  | nil => exact Completes.value list
  | cons a items ih =>
      obtain ⟨ha, hitems⟩ := List.forall_mem_cons.mp h
      rw [List.map_cons, List.map_cons, List.foldlM_cons, List.foldlM_cons]
      refine Completes.bind ?_ fun list => ih hitems list
      exact ha.bind fun b => Completes.value (list.append b)

theorem Completes.chain {strict : α → StrictBuilding β} {m : α → Building β} {c : Chain α}
    (h : ∀ a ∈ c.toList, Completes (strict a) (m a)) :
    Completes (strictChain (c.map strict)) (replayChain (c.map m)) := by
  obtain ⟨first, rest⟩ := c
  obtain ⟨hfirst, hrest⟩ := List.forall_mem_cons.mp h
  exact hfirst.bind fun b => completes_foldlM hrest (Chain.singleton b)

theorem Completes.optional {strict : α → StrictBuilding β} {m : α → Building β}
    {part : Option α} (h : ∀ a ∈ part, Completes (strict a) (m a)) :
    Completes (strictOptional (part.map strict)) (replayOptional (part.map m)) := by
  cases part with
  | none => exact Completes.value none
  | some a => exact (h a rfl).bind fun b => Completes.value (some b)

end Pieces

namespace Expression

/-- The operands are built from left to right, and then the node.  Only operators and minuses could
fail. -/
def strictReplaying : Interpretation (StrictBuilding Expression) where
  literal line value := strictAtLine line fun s => .ok (s.literal value)
  identifier line name := strictAtLine line fun s => .ok (s.identifier name)
  assign line target operand := do
    let operand ← operand
    strictAtLine line fun s => .ok (s.assign target operand)
  binary line op left right := do
    let left ← left
    let right ← right
    strictAtLine line fun s => s.strictBinary op left right
  minus line operand := do
    let operand ← operand
    strictAtLine line fun s => s.strictMinus operand
  call line name arguments := do
    let arguments ← strictOptional (arguments.map strictChain)
    strictAtLine line fun s => .ok (s.call name arguments)

/-- Builds an expression once more, unless one of its nodes fails. -/
def strictReplay : Expression → StrictBuilding Expression :=
  interpret strictReplaying

/-- No description stops its construction. -/
theorem completes_strictReplay (e : Expression) : Completes e.strictReplay e.replay := by
  induction e with
  | literal line value => exact completes_atLine fun s => rfl
  | identifier line name => exact completes_atLine fun s => rfl
  | assign line target operand ih =>
      exact ih.bind fun operand => completes_atLine fun s => rfl
  | binary line op left right ihleft ihright =>
      refine ihleft.bind fun left => ihright.bind fun right => ?_
      exact completes_atLine fun s => s.strictBinary_eq_ok op left right
  | minus line operand ih =>
      exact ih.bind fun operand => completes_atLine fun s => s.strictMinus_eq_ok operand
  | call line name arguments ih =>
      have harguments : Completes
          (strictOptional ((arguments.map (Chain.map strictReplay)).map strictChain))
          (replayOptional ((arguments.map (Chain.map replay)).map replayChain)) := by
        rw [Option.map_map, Option.map_map]
        exact Completes.optional fun chain hchain => Completes.chain (ih chain hchain)
      rw [strictReplay, replay, interpret_call, interpret_call]
      exact harguments.bind fun arguments => completes_atLine fun s => rfl

/-! ## What is built -/

/-- Sessions with folding build a tree for a description, no matter what they have built before:
node by node, without an unexpected failure, and in a script that would build the description if it
did not fold. -/
structure FoldsTo (e built : Expression) : Prop where
  replay : ∀ s : Session, s.options.constantFolding = true →
    ∃ line, e.strictReplay.run s = .ok (built, s.setLine line)
  script : ∀ (firstLine : Line) (steps : List Step) (s : Session) (ps : Products) (r : Nat),
    runSteps (.start ⟨false, firstLine⟩) #[] steps = some (s, ps) → ps.expression? r = some e →
      ∃ s' ps', runSteps (.start ⟨true, firstLine⟩) #[] steps = some (s', ps') ∧
        ps'.expression? r = some built

theorem foldsTo_foldTree (e : Expression) : e.FoldsTo e.foldTree where
  replay := by
    intro s hs
    obtain ⟨line, hreplay⟩ := e.yields_replay Translation.folding_reaches s hs
    refine ⟨line, ?_⟩
    rw [e.completes_strictReplay s, hreplay]
    rfl
  script := by
    intro firstLine steps s ps r hrun hr
    refine ⟨Translation.folding.session Options.folding s, Translation.folding.products ps, ?_, ?_⟩
    · rw [runSteps_folding, hrun]
      rfl
    · rw [Products.expression?] at hr
      rw [Products.expression?, Translation.find?_products, hr]
      rfl

end Expression

end ScriptTree
