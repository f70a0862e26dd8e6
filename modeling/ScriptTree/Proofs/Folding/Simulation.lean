import ScriptTree.Proofs.Construction.Parts
import ScriptTree.Proofs.Folding.Tree

/-!
# Folding while building

A session that folds and one that does not, run on the same steps, stay in lockstep: the folding
one has what the other has, folded.  Lines, diagnostics and the order of functions are not
touched, and a step fails on both only if it refers to a part that is not there.
-/

namespace ScriptTree

/-- The states of two sessions of which only the first folds, after the same steps. -/
structure Simulates (folding plain : Session × Products) : Prop where
  line : folding.1.line = plain.1.line
  diagnostics : folding.1.diagnostics = plain.1.diagnostics
  /-- Names, lines, parameters and host functions agree; the bodies of functions are folded. -/
  functions : folding.1.functions.toList =
    plain.1.functions.toList.map Translation.folding.definition
  lookup : ∀ name, folding.1.functions.lookup name =
    (plain.1.functions.lookup name).map Translation.folding.definition
  /-- Every tree and every list of trees is the folded one. -/
  products : folding.2 = Translation.folding.products plain.2
  finish : folding.1.finish = plain.1.finish.map Translation.folding.table

/-- The state of the folding session is a function of the state of the other one. -/
theorem runSteps_folding (firstLine : Line) (steps : List Step) :
    runSteps (.start ⟨true, firstLine⟩) #[] steps =
      (runSteps (.start ⟨false, firstLine⟩) #[] steps).map
        (Prod.map (Translation.folding.session Options.folding)
          Translation.folding.products) := by
  have hstart : Session.start ⟨true, firstLine⟩ =
      Translation.folding.session Options.folding (.start ⟨false, firstLine⟩) :=
    (Translation.folding.session_start Options.folding ⟨false, firstLine⟩ rfl).symm
  have hplain : (Session.start ⟨false, firstLine⟩).options.constantFolding = false := rfl
  have hrun := Translation.runSteps_session
    (P := fun options => options.constantFolding = false)
    (fun _ => Translation.folding_commutes_session) hplain #[] steps
  rwa [← hstart, Translation.products_empty] at hrun

/-- Folding sessions that share their trees have the folded trees of sessions that do not fold. -/
theorem runStepsOn_folding (firstLines : Array Line) (steps : List (Nat × Step)) :
    runStepsOn (firstLines.map fun line => .start ⟨true, line⟩) #[] steps =
      (runStepsOn (firstLines.map fun line => .start ⟨false, line⟩) #[] steps).map
        (Prod.map (Array.map (Translation.folding.session Options.folding))
          Translation.folding.products) := by
  have hstart : (firstLines.map fun line => Session.start ⟨true, line⟩) =
      (firstLines.map fun line => Session.start ⟨false, line⟩).map
        (Translation.folding.session Options.folding) := by
    rw [Array.map_map]
    refine Array.map_congr_left fun line _ => ?_
    exact (Translation.folding.session_start Options.folding ⟨false, line⟩ rfl).symm
  have hplain : ∀ s ∈ firstLines.map fun line => Session.start ⟨false, line⟩,
      s.options.constantFolding = false := by
    intro s hs
    obtain ⟨line, -, rfl⟩ := Array.mem_map.mp hs
    rfl
  have hrun := Translation.runStepsOn_session
    (P := fun options => options.constantFolding = false)
    (fun _ => Translation.folding_commutes_session) hplain #[] steps
  rwa [← hstart, Translation.products_empty] at hrun

theorem simulates_session (s : Session) (ps : Products) :
    Simulates (Translation.folding.session Options.folding s, Translation.folding.products ps)
      (s, ps) where
  line := rfl
  diagnostics := rfl
  functions := Translation.folding.toList_table s.functions
  lookup := Translation.folding.lookup_table s.functions
  products := rfl
  finish := by
    change (if s.hasErrors then _ else _) = Except.map _ (if s.hasErrors then _ else _)
    split <;> rfl

/-- After any steps the folding session has the folded trees of the other one.  As the steps are
arbitrary, this holds after each of them; and both sessions go on as long as every step finds its
parts. -/
theorem folding_simulates (firstLine : Line) (steps : List Step) :
    Option.Rel Simulates (runSteps (.start ⟨true, firstLine⟩) #[] steps)
        (runSteps (.start ⟨false, firstLine⟩) #[] steps) ∧
      (runSteps (.start ⟨false, firstLine⟩) #[] steps).isSome = stepsFit #[] steps := by
  constructor
  · rw [runSteps_folding]
    cases runSteps (.start ⟨false, firstLine⟩) #[] steps with
    | none => exact .none
    | some state => exact .some (simulates_session state.1 state.2)
  · rw [isSome_runSteps, Products.kinds_empty]

end ScriptTree
