import ScriptTree.Proofs.Folding.Tree
import ScriptTree.Proofs.Lines.Stamp

/-!
# Scripts without lines

Erasing replaces every line by line zero: in trees, in functions, in diagnostics and in the session
itself.  A script without its line moves, run on an erased session, builds the erased trees, so
nothing but lines can depend on lines: two scripts that differ only in their moves and in the first
line end in states that are equal once lines are erased.
-/

namespace ScriptTree

/-! ## Trees -/

/-- Every node is rebuilt at line zero. -/
def Expression.erasing : Expression.Interpretation Expression where
  literal _ := .literal 0
  identifier _ := .identifier 0
  assign _ := .assign 0
  binary _ := .binary 0
  minus _ := .minus 0
  call _ := .call 0

/-- The tree at line zero. -/
def Expression.eraseLines : Expression → Expression :=
  Expression.interpret Expression.erasing

def Statement.erasing : Statement.Interpretation Statement Elsif Block where
  expression _ e := .expression 0 e.eraseLines
  global _ := .global 0
  ifElse _ condition := .ifElse 0 condition.eraseLines
  whileLoop _ condition := .whileLoop 0 condition.eraseLines
  forLoop _ init condition post := .forLoop 0 (init.map Expression.eraseLines)
    (condition.map Expression.eraseLines) (post.map Expression.eraseLines)
  returnWith _ value := .returnWith 0 (value.map Expression.eraseLines)
  breakLoop _ := .breakLoop 0
  continueLoop _ := .continueLoop 0
  elsif condition := .mk condition.eraseLines
  block := .mk

/-- Trees of every sort at line zero. -/
def Translation.erasing : Translation where
  expression := Expression.eraseLines
  statement := Statement.interpret Statement.erasing
  elsif := Elsif.interpret Statement.erasing
  block := Block.interpret Statement.erasing

/-- Only literals fold, and a literal keeps its value. -/
theorem Expression.foldable?_eraseLines (e : Expression) :
    e.eraseLines.foldable? = e.foldable? := by
  cases e with
  | literal line value => cases value <;> rfl
  | call line name arguments =>
      rw [eraseLines, interpret_call]
      rfl
  | _ => rfl

/-- A session at line zero builds the erased tree out of erased parts.  In particular it folds where
the other one does. -/
theorem Translation.erasing_commutes {s s' : Session} (hline : s'.line = 0)
    (hfolding : s'.options.constantFolding = s.options.constantFolding) :
    Translation.erasing.Commutes s s' := by
  obtain ⟨options', line', functions', diagnostics'⟩ := s'
  obtain rfl : line' = 0 := hline
  constructor
  case binary =>
    intro op left right
    have hfold : Session.fold? op left.eraseLines right.eraseLines =
        Session.fold? op left right := by
      rw [Session.fold?, Session.fold?, Expression.foldable?_eraseLines,
        Expression.foldable?_eraseLines]
    change Session.binary _ op left.eraseLines right.eraseLines = _
    rw [Session.binary, Session.binary, hfold, hfolding]
    split <;> rfl
  case minus =>
    intro operand
    have hfold : Session.foldMinus? operand.eraseLines = Session.foldMinus? operand := by
      rw [Session.foldMinus?, Session.foldMinus?, Expression.foldable?_eraseLines]
    change Session.minus _ operand.eraseLines = _
    rw [Session.minus, Session.minus, hfold, hfolding]
    split <;> rfl
  case call =>
    intro name arguments
    exact (Expression.interpret_call Expression.erasing s.line name arguments).symm
  case ifElse =>
    intro condition thenBlock elsifs elseBlock
    exact (Statement.interpret_ifElse Statement.erasing s.line condition thenBlock elsifs
      elseBlock).symm
  case block =>
    intro statements
    exact (Block.interpret_mk Statement.erasing statements).symm
  -- The other nodes get line zero on both sides.
  all_goals intros; rfl

/-! ## Sessions -/

def FunctionDefinition.eraseLines (f : FunctionDefinition) : FunctionDefinition :=
  { Translation.erasing.definition f with line := 0 }

def FunctionTable.eraseLines (t : FunctionTable) : FunctionTable :=
  t.mapDefinitions FunctionDefinition.eraseLines

def Diagnostic.eraseLine : Diagnostic → Diagnostic
  | .duplicateFunction name _ => .duplicateFunction name 0

/-- The session at line zero, with the first line forgotten as well. -/
def Session.eraseLines (s : Session) : Session where
  options := { s.options with firstLine := 0 }
  line := 0
  functions := s.functions.eraseLines
  diagnostics := s.diagnostics.map Diagnostic.eraseLine

theorem Session.eraseLines_start (folding : Bool) (firstLine : Line) :
    (Session.start ⟨folding, firstLine⟩).eraseLines = .start ⟨folding, 0⟩ := by
  simp only [eraseLines, start, FunctionTable.eraseLines, FunctionTable.mapDefinitions,
    FunctionTable.empty, Array.map_empty]

/-- Whether a definition is accepted does not depend on its line. -/
theorem Session.eraseLines_addFunction (s : Session) (f : FunctionDefinition) :
    (s.addFunction f).eraseLines = s.eraseLines.addFunction f.eraseLines := by
  have hoffer : s.eraseLines.functions.offer f.eraseLines =
      ((s.functions.offer f).1.eraseLines,
        (s.functions.offer f).2.map FunctionDefinition.eraseLines) :=
    FunctionTable.offer_mapDefinitions (g := FunctionDefinition.eraseLines) (fun _ => rfl)
      s.functions f
  rw [addFunction, addFunction, hoffer]
  rcases s.functions.offer f with ⟨t, _ | rejected⟩
  · rfl
  · simp only [eraseLines, Option.map_some, report, Array.map_push, Diagnostic.eraseLine]
    rfl

/-! ## Scripts -/

/-- A step without its lines: moves are dropped, and a reported line is erased. -/
def Step.bare? : Step → Option Step
  | .setLine _ | .advanceLine => none
  | .report diagnostic => some (.report diagnostic.eraseLine)
  | step => some step

namespace Step

/-- A move changes nothing but the line. -/
theorem run_of_bare?_eq_none {step : Step} (h : step.bare? = none) (s : Session)
    (ps : Products) : ∃ line, step.run s ps = some (s.setLine line, ps) := by
  cases step with
  | setLine line => exact ⟨line, rfl⟩
  | advanceLine => exact ⟨s.line + 1, rfl⟩
  | _ => cases h

section Bare

variable {step bare : Step} (h : step.bare? = some bare) (s : Session) (ps : Products)

include h

theorem session?_of_bare? :
    bare.session? s.eraseLines (Translation.erasing.products ps) =
      (step.session? s ps).map Session.eraseLines := by
  cases step with
  | setLine | advanceLine => cases h
  | define name parameters body =>
      cases h
      have hdefine : ∀ list block,
          s.eraseLines.define name list (Translation.erasing.block block) =
            (s.define name list block).eraseLines :=
        fun list block =>
          (s.eraseLines_addFunction ⟨name, s.line, .userDefined list block⟩).symm
      simp only [session?, Translation.find?_products, Translation.optionally_products,
        Translation.content, Option.map_id, id_eq, hdefine, Option.bind_eq_bind, Option.bind_map,
        Option.map_bind, Function.comp_def, Option.pure_def, Option.map_some]
  | registerNative name run =>
      cases h
      exact congrArg some (s.eraseLines_addFunction ⟨name, 0, .native run⟩).symm
  | report diagnostic =>
      cases h
      simp only [session?, Session.report, Session.eraseLines, Array.map_push, Option.map_some]
  | _ => cases h; rfl

theorem product?_of_bare? :
    bare.product? s.eraseLines (Translation.erasing.products ps) =
      (step.product? s ps).map Translation.erasing.product := by
  have hcommutes : Translation.erasing.Commutes s s.eraseLines :=
    Translation.erasing_commutes rfl rfl
  rw [← hcommutes.product? ps step]
  cases step with
  | setLine | advanceLine => cases h
  | _ => cases h; rfl

/-- Any other step does on the erased session what it does, with the lines erased. -/
theorem run_of_bare?_eq_some :
    bare.run s.eraseLines (Translation.erasing.products ps) =
      (step.run s ps).map (Prod.map Session.eraseLines Translation.erasing.products) := by
  rw [run, run, session?_of_bare? h, product?_of_bare? h]
  cases step.session? s ps with
  | some s' => rfl
  | none =>
      simp only [Option.map_none, Option.map_map, Function.comp_def, Prod.map,
        Translation.products_push]

end Bare

end Step

/-- A script without its lines, run on the erased session, builds the erased trees. -/
theorem runSteps_bare (s : Session) (ps : Products) (steps : List Step) :
    runSteps s.eraseLines (Translation.erasing.products ps) (steps.filterMap Step.bare?) =
      (runSteps s ps steps).map (Prod.map Session.eraseLines Translation.erasing.products) := by
  induction steps generalizing s ps with
  | nil => rfl
  | cons step steps ih =>
      rw [runSteps_cons]
      cases hbare : step.bare? with
      | none =>
          obtain ⟨line, hrun⟩ := Step.run_of_bare?_eq_none hbare s ps
          rw [List.filterMap_cons_none hbare, hrun]
          exact ih (s.setLine line) ps
      | some bare =>
          rw [List.filterMap_cons_some hbare, runSteps_cons, Step.run_of_bare?_eq_some hbare]
          cases step.run s ps with
          | none => rfl
          | some state => exact ih state.1 state.2

/-- What remains of the end of a run once lines are erased. -/
def eraseEnd : Option (Session × Products) → Option (Session × Products) :=
  Option.map (Prod.map Session.eraseLines Translation.erasing.products)

/-- Runs of the same script are equal once lines are erased, wherever the lines move. -/
theorem eraseEnd_runSteps (folding : Bool) (firstLine : Line) (steps : List Step) :
    eraseEnd (runSteps (.start ⟨folding, firstLine⟩) #[] steps) =
      runSteps (.start ⟨folding, 0⟩) #[] (steps.filterMap Step.bare?) := by
  have hbare := runSteps_bare (.start ⟨folding, firstLine⟩) #[] steps
  rw [Session.eraseLines_start, Translation.products_empty] at hbare
  exact hbare.symm

/-- Lines are stamped once and decide nothing else.  Whatever a session built and recorded carries
the lines of the calls that built it, and neither later steps nor the end of the session change
that.  Scripts that differ in their lines only end in the same state once lines are erased. -/
theorem lines_only_stamp (folding : Bool) (firstLine : Line) (steps : List Step) :
    (runSteps (.start ⟨folding, firstLine⟩) #[] steps).isSome = stepsFit #[] steps ∧
    (∀ s ps, runSteps (.start ⟨folding, firstLine⟩) #[] steps = some (s, ps) →
      s.Stamped ps (constructions firstLine steps) ∧
      (∀ t, s.finish = .ok t → t = s.functions) ∧
      ∀ n, ∃ s₀ ps₀, runSteps (.start ⟨folding, firstLine⟩) #[] (steps.take n) = some (s₀, ps₀) ∧
        s₀.KeptBy s ∧ ps₀.toList <+: ps.toList) ∧
    ∀ firstLine' steps', steps.filterMap Step.bare? = steps'.filterMap Step.bare? →
      eraseEnd (runSteps (.start ⟨folding, firstLine⟩) #[] steps) =
        eraseEnd (runSteps (.start ⟨folding, firstLine'⟩) #[] steps') := by
  refine ⟨?_, ?_, ?_⟩
  · rw [isSome_runSteps, Products.kinds_empty]
  · intro s ps hrun
    refine ⟨stamped_of_runSteps hrun, ?_, kept_of_runSteps hrun⟩
    intro t ht
    rw [Session.finish] at ht
    split at ht
    · cases ht
    · exact (Except.ok.inj ht).symm
  · intro firstLine' steps' hbare
    rw [eraseEnd_runSteps, eraseEnd_runSteps, hbare]

/-- The body of a function: a difference over three lines, which folds. -/
def differenceSteps : List Step :=
  [.setLine 1, .literal (.integer 2), .advanceLine, .literal (.integer 3), .advanceLine,
    .binary .sub 0 1, .expressionStatement 2, .setLine 9, .newStatements 3,
    .block (some 4), .define "f" none 5]

/-- The result has the line of the operator and not those of the operands.  It is the same result
where no line moves at all. -/
theorem lines_only_stamp_difference :
    ∃ s ps, runSteps (.start ⟨true, 0⟩) #[] differenceSteps = some (s, ps) ∧
      s.Stamped ps [⟨1, .literal (.integer 2)⟩, ⟨2, .literal (.integer 3)⟩,
        ⟨3, .binary .sub 0 1⟩, ⟨3, .expressionStatement 2⟩, ⟨9, .newStatements 3⟩,
        ⟨9, .block (some 4)⟩] ∧
      ps[5]? = some (.block ⟨[.expression 3 (.literal 3 (.integer (-1)))]⟩) ∧
      eraseEnd (runSteps (.start ⟨true, 0⟩) #[] differenceSteps) =
        eraseEnd (runSteps (.start ⟨true, 40⟩) #[] (differenceSteps.filterMap Step.bare?)) := by
  obtain ⟨s, ps, hrun, hbody⟩ : ∃ s ps,
      runSteps (.start ⟨true, 0⟩) #[] differenceSteps = some (s, ps) ∧
      ps[5]? = some (.block ⟨[.expression 3 (.literal 3 (.integer (-1)))]⟩) :=
    ⟨_, _, rfl, rfl⟩
  obtain ⟨-, hstamped, hbare⟩ := lines_only_stamp true 0 differenceSteps
  exact ⟨s, ps, hrun, (hstamped s ps hrun).1, hbody, hbare 40 _ rfl⟩

end ScriptTree
