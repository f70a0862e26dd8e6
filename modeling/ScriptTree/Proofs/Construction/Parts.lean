import ScriptTree.Proofs.Construction.Run

/-!
# The parts of a step

A step refers to earlier products by number.  It runs exactly if they are there and of the right
kinds, whatever the session is, and it fails in no other way.  So the steps alone tell whether a
construction runs to its end.
-/

namespace ScriptTree

/-- The kinds of product. -/
inductive Product.Kind where
  | expression | statement | elsif | block | names | arguments | statements | elsifs
deriving DecidableEq

def Product.kind : Product → Product.Kind
  | .expression _ => .expression
  | .statement _ => .statement
  | .elsif _ => .elsif
  | .block _ => .block
  | .names _ => .names
  | .arguments _ => .arguments
  | .statements _ => .statements
  | .elsifs _ => .elsifs

def Products.kinds (ps : Products) : Array Product.Kind :=
  ps.map Product.kind

theorem Products.kinds_empty : Products.kinds #[] = #[] :=
  Array.map_empty

namespace Step

/-- The numbers that a step refers to, with the kinds it expects there. -/
def parts : Step → List (Ref × Product.Kind)
  | .assign _ operand | .minus operand => [(operand, .expression)]
  | .binary _ left right => [(left, .expression), (right, .expression)]
  | .call _ arguments => arguments.toList.map (·, .arguments)
  | .appendName list _ => [(list, .names)]
  | .newArguments first => [(first, .expression)]
  | .appendArgument list item => [(list, .arguments), (item, .expression)]
  | .newStatements first => [(first, .statement)]
  | .appendStatement list item => list.toList.map (·, .statements) ++ [(item, .statement)]
  | .newElsifs first => [(first, .elsif)]
  | .appendElsif list item => [(list, .elsifs), (item, .elsif)]
  | .elsif condition body => [(condition, .expression), (body, .block)]
  | .block statements => statements.toList.map (·, .statements)
  | .expressionStatement expression => [(expression, .expression)]
  | .globalStatement names => [(names, .names)]
  | .ifElse condition thenBlock elsifs elseBlock =>
    [(condition, .expression), (thenBlock, .block)] ++ elsifs.toList.map (·, .elsifs) ++
      elseBlock.toList.map (·, .block)
  | .whileLoop condition body => [(condition, .expression), (body, .block)]
  | .forLoop init condition post body =>
    (init.toList ++ condition.toList ++ post.toList).map (·, .expression) ++ [(body, .block)]
  | .returnWith value => value.toList.map (·, .expression)
  | .define _ parameters body => parameters.toList.map (·, .names) ++ [(body, .block)]
  | .setLine _ | .advanceLine | .literal _ | .identifier _ | .newNames _ | .breakLoop
  | .continueLoop | .registerNative _ _ | .report _ => []

/-- The kind of product that a step makes, if it makes one. -/
def makes : Step → Option Product.Kind
  | .literal _ | .identifier _ | .assign _ _ | .binary _ _ _ | .minus _ | .call _ _ =>
    some .expression
  | .newNames _ | .appendName _ _ => some .names
  | .newArguments _ | .appendArgument _ _ => some .arguments
  | .newStatements _ | .appendStatement _ _ => some .statements
  | .newElsifs _ | .appendElsif _ _ => some .elsifs
  | .elsif _ _ => some .elsif
  | .block _ => some .block
  | .expressionStatement _ | .globalStatement _ | .ifElse _ _ _ _ | .whileLoop _ _
  | .forLoop _ _ _ _ | .returnWith _ | .breakLoop | .continueLoop => some .statement
  | .setLine _ | .advanceLine | .define _ _ _ | .registerNative _ _ | .report _ => none

/-- Whether every part is there. -/
def fits (kinds : Array Product.Kind) (step : Step) : Bool :=
  step.parts.all fun (r, kind) => kinds[r]? == some kind

/-- The kinds of all products after a step. -/
def kindsAfter (kinds : Array Product.Kind) (step : Step) : Array Product.Kind :=
  match step.makes with
  | some kind => kinds.push kind
  | none => kinds

end Step

/-- Whether every step finds its parts among the products of the steps before it. -/
def stepsFit (kinds : Array Product.Kind) : List Step → Bool
  | [] => true
  | step :: steps => step.fits kinds && stepsFit (step.kindsAfter kinds) steps

/-- The kind of product that a part is. -/
def Part.kind {α : Type} : Part α → Product.Kind
  | .expression => .expression
  | .statement => .statement
  | .elsif => .elsif
  | .block => .block
  | .names => .names
  | .arguments => .arguments
  | .statements => .statements
  | .elsifs => .elsifs

theorem Part.isSome_content? {α : Type} (part : Part α) (p : Product) :
    (part.content? p).isSome = (p.kind == part.kind) := by
  cases part <;> cases p <;> rfl

theorem Products.getElem?_kinds (ps : Products) (r : Ref) :
    ps.kinds[r]? = ps[r]?.map Product.kind :=
  Array.getElem?_map

/-- A part is found exactly if there is a product with the number and it is of the kind. -/
theorem Products.isSome_find? {α : Type} (ps : Products) (part : Part α) (r : Ref) :
    (ps.find? part r).isSome = (ps.kinds[r]? == some part.kind) := by
  rw [find?, getElem?_kinds]
  cases ps[r]? with
  | none => rfl
  | some p => exact part.isSome_content? p

/-- The product that a part is. -/
def Part.wrap {α : Type} : Part α → α → Product
  | .expression => .expression
  | .statement => .statement
  | .elsif => .elsif
  | .block => .block
  | .names => .names
  | .arguments => .arguments
  | .statements => .statements
  | .elsifs => .elsifs

theorem Part.content?_eq_some_iff {α : Type} (part : Part α) (p : Product) {a : α} :
    part.content? p = some a ↔ p = part.wrap a := by
  cases part <;> cases p <;> simp [content?, wrap]

theorem Products.find?_eq_some_iff {α : Type} {ps : Products} {part : Part α} {r : Ref} {a : α} :
    ps.find? part r = some a ↔ ps[r]? = some (part.wrap a) := by
  simp only [find?, Option.bind_eq_some_iff, Part.content?_eq_some_iff, exists_eq_right]

/-- A part that may be left out is looked for only where it is asked for. -/
theorem isSome_optionally {α : Type} (find : Ref → Option α) (part : Option Ref) :
    (optionally find part).isSome = part.toList.all fun r => (find r).isSome := by
  cases part with
  | none => rfl
  | some r => simp [optionally]

private theorem any_const {α : Type} (x : Option α) (b : Bool) :
    (x.any fun _ => b) = (x.isSome && b) := by
  cases x <;> rfl

namespace Step

theorem isSome_run (s : Session) (ps : Products) (step : Step) :
    (step.run s ps).isSome =
      ((step.session? s ps).isSome || (step.product? s ps).isSome) := by
  rw [run]
  cases step.session? s ps with
  | none => exact Option.isSome_map
  | some s' => rfl

/-- A step runs exactly if its parts are there. -/
theorem isSome_run_eq_fits (s : Session) (ps : Products) (step : Step) :
    (step.run s ps).isSome = step.fits ps.kinds := by
  rw [isSome_run]
  cases step <;>
    simp [session?, product?, fits, parts, Option.isSome_bind, any_const, isSome_optionally,
      Function.comp_def, Products.isSome_find?, Part.kind]

theorem makes_of_product? {s : Session} {ps : Products} {step : Step} {p : Product}
    (h : step.product? s ps = some p) : step.makes = some p.kind := by
  cases step <;>
    simp only [product?, Option.bind_eq_bind, Option.bind_eq_some_iff, Option.pure_def,
      Option.some.injEq, reduceCtorEq] at h
  all_goals grind [makes, Product.kind]

theorem makes_of_session? {s s' : Session} {ps : Products} {step : Step}
    (h : step.session? s ps = some s') : step.makes = none := by
  cases step with
  | setLine | advanceLine | define | registerNative | report => rfl
  | _ => cases h

/-- A step adds the kind of product that it is said to make. -/
theorem kinds_of_run {s s' : Session} {ps ps' : Products} {step : Step}
    (h : step.run s ps = some (s', ps')) : ps'.kinds = step.kindsAfter ps.kinds := by
  rcases run_eq_some h with ⟨hs, rfl⟩ | ⟨p, hp, -, rfl⟩
  · rw [kindsAfter, makes_of_session? hs]
  · rw [kindsAfter, makes_of_product? hp]
    exact Array.map_push

theorem isSome_runOn (ss : Array Session) (ps : Products) (i : Nat) (step : Step) :
    (step.runOn ss ps i).isSome = (decide (i < ss.size) && step.fits ps.kinds) := by
  rw [runOn]
  by_cases hi : i < ss.size
  · have hrun := step.isSome_run_eq_fits ss[i] ps
    simp [hi, Option.isSome_bind, hrun]
  · simp [hi]

end Step

/-- A construction runs to its end exactly if every step has its parts. -/
theorem isSome_runSteps (s : Session) (ps : Products) (steps : List Step) :
    (runSteps s ps steps).isSome = stepsFit ps.kinds steps := by
  induction steps generalizing s ps with
  | nil => rfl
  | cons step steps ih =>
      have hfits := step.isSome_run_eq_fits s ps
      rw [runSteps_cons, stepsFit, ← hfits]
      cases hrun : step.run s ps with
      | none => rfl
      | some state =>
          obtain ⟨s', ps'⟩ := state
          rw [Option.bind_some, ih, Step.kinds_of_run hrun]
          rfl

/-- The same for several sessions: every step has its session and its parts. -/
theorem isSome_runStepsOn (ss : Array Session) (ps : Products) (steps : List (Nat × Step)) :
    (runStepsOn ss ps steps).isSome =
      (steps.all (fun action => decide (action.1 < ss.size)) &&
        stepsFit ps.kinds (steps.map Prod.snd)) := by
  induction steps generalizing ss ps with
  | nil => rfl
  | cons action steps ih =>
      obtain ⟨i, step⟩ := action
      have hfits := step.isSome_runOn ss ps i
      rw [runStepsOn_cons, List.all_cons, List.map_cons, stepsFit]
      cases hrun : step.runOn ss ps i with
      | none =>
          rw [hrun, Option.isSome_none, eq_comm, Bool.and_eq_false_iff] at hfits
          rcases hfits with hfits | hfits <;> simp [hfits]
      | some state =>
          obtain ⟨ss', ps'⟩ := state
          obtain ⟨s, s', hs, hstep, rfl⟩ := Step.runOn_eq_some hrun
          rw [hrun, Option.isSome_some, eq_comm, Bool.and_eq_true] at hfits
          rw [Option.bind_some, ih, Step.kinds_of_run hstep, Array.size_setIfInBounds,
            hfits.1, hfits.2, Bool.true_and, Bool.true_and]

end ScriptTree
