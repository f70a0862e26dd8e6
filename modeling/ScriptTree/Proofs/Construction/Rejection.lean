import ScriptTree.Proofs.Construction.Account
import ScriptTree.Proofs.FunctionTable.Exchange

/-!
# Calls that leave no trace

A report, and a definition under a name that is taken, only add to the diagnostics.  A run without
them goes through the same sessions, apart from the diagnostics, and has nothing to report.
-/

namespace ScriptTree

/-! ## Silence -/

/-- The session with its diagnostics forgotten. -/
def Session.silent (s : Session) : Session :=
  { s with diagnostics := #[] }

theorem Session.silent_addFunction_of_contains {s : Session} {f : FunctionDefinition}
    (h : s.functions.contains f.name = true) : (s.addFunction f).silent = s.silent := by
  rw [addFunction, FunctionTable.offer_of_contains h]
  rfl

theorem Session.addFunction_silent {s : Session} {f : FunctionDefinition}
    (h : s.functions.contains f.name = false) :
    s.silent.addFunction f = (s.addFunction f).silent := by
  have hsilent : s.silent.functions.offer f = s.functions.offer f := rfl
  rw [addFunction, addFunction, hsilent, FunctionTable.offer_of_not_contains h]
  rfl

/-! ## Steps -/

/-- Whether a step is a report, or offers a definition that will be turned down. -/
def Step.isVain (s : Session) : Step → Bool
  | .define name _ _ | .registerNative name _ => s.functions.contains name
  | .report _ => true
  | _ => false

namespace Step

variable {s s' : Session} {ps ps' : Products} {step : Step}

theorem isVain_eq_false_of_product? {p : Product} (h : step.product? s ps = some p) :
    step.isVain s = false := by
  cases step with
  | define | registerNative | report => cases h
  | _ => rfl

/-- A vain step leaves no trace but a diagnostic. -/
theorem silent_of_run_of_isVain (hvain : step.isVain s = true)
    (h : step.run s ps = some (s', ps')) : s'.silent = s.silent ∧ ps' = ps := by
  rcases run_eq_some h with ⟨hs, rfl⟩ | ⟨p, hp, -, -⟩
  · refine ⟨?_, rfl⟩
    cases step with
    | define name parameters body =>
        simp only [session?, Option.bind_eq_bind, Option.bind_eq_some_iff, Option.pure_def,
          Option.some.injEq] at hs
        obtain ⟨list, -, block, -, rfl⟩ := hs
        exact Session.silent_addFunction_of_contains hvain
    | registerNative name run =>
        cases hs
        exact Session.silent_addFunction_of_contains hvain
    | report diagnostic =>
        cases hs
        rfl
    | _ => cases hvain
  · rw [isVain_eq_false_of_product? hp] at hvain
    cases hvain

/-- The other steps do not read the diagnostics, and do not write any. -/
theorem run_silent_of_not_isVain (hvain : step.isVain s = false)
    (h : step.run s ps = some (s', ps')) : step.run s.silent ps = some (s'.silent, ps') := by
  rcases run_eq_some h with ⟨hs, rfl⟩ | ⟨p, hp, rfl, rfl⟩
  · suffices hsilent : step.session? s.silent ps' = some s'.silent by rw [run, hsilent]
    cases step with
    | setLine line | advanceLine =>
        cases hs
        rfl
    | define name parameters body =>
        simp only [session?, Option.bind_eq_bind, Option.bind_eq_some_iff, Option.pure_def,
          Option.some.injEq] at hs ⊢
        obtain ⟨list, hlist, block, hblock, rfl⟩ := hs
        exact ⟨list, hlist, block, hblock, Session.addFunction_silent hvain⟩
    | registerNative name run =>
        cases hs
        exact congrArg some (Session.addFunction_silent hvain)
    | report diagnostic => cases hvain
    | _ => cases hs
  · have hsession : step.session? s'.silent ps = none := by
      cases step with
      | setLine | advanceLine | define | registerNative | report => cases hp
      | _ => rfl
    have hproduct : step.product? s'.silent ps = some p := by
      rw [← hp]
      cases step <;> rfl
    rw [run, hsession, hproduct]
    rfl

end Step

/-! ## Runs -/

/-- The steps of a run that are not vain. -/
def effectiveSteps (s : Session) (ps : Products) : List Step → List Step
  | [] => []
  | step :: steps =>
    match step.run s ps with
    | none => step :: steps
    | some (s', ps') =>
      if step.isVain s then effectiveSteps s' ps' steps
      else step :: effectiveSteps s' ps' steps

/-- Without its vain steps, a run is the same but for the diagnostics. -/
theorem runSteps_effectiveSteps {s s' : Session} {ps ps' : Products} {steps : List Step}
    (h : runSteps s ps steps = some (s', ps')) :
    runSteps s.silent ps (effectiveSteps s ps steps) = some (s'.silent, ps') := by
  induction steps generalizing s ps with
  | nil =>
      cases h
      rfl
  | cons step steps ih =>
      rw [runSteps_cons, Option.bind_eq_some_iff] at h
      obtain ⟨⟨s₁, ps₁⟩, hstep, hsteps⟩ := h
      simp only [effectiveSteps, hstep]
      cases hvain : step.isVain s with
      | true =>
          obtain ⟨hsilent, rfl⟩ := Step.silent_of_run_of_isVain hvain hstep
          rw [if_pos rfl, ← hsilent]
          exact ih hsteps
      | false =>
          rw [if_neg Bool.false_ne_true, runSteps_cons, Step.run_silent_of_not_isVain hvain hstep]
          exact ih hsteps

/-- A session that reports nothing and has the functions of another one. -/
structure Session.IsQuietFormOf (t s : Session) : Prop where
  diagnostics : t.diagnostics = #[]
  finish : t.finish = .ok t.functions
  toList : t.functions.toList = s.functions.toList
  lookup : ∀ name, t.functions.lookup name = s.functions.lookup name

theorem Session.isQuietFormOf_silent (s : Session) : s.silent.IsQuietFormOf s :=
  ⟨rfl, rfl, rfl, fun _ => rfl⟩

/-- Reports and definitions that are turned down leave no trace in the functions of a session.
Neighbouring calls under different names may be exchanged, and a table is what its own definitions
make of an empty one. -/
theorem rejections_leave_no_trace :
    (∀ options ps steps s ps', runSteps (.start options) ps steps = some (s, ps') →
      s.functions.IsRebuilt ∧
      ∃ t, runSteps (.start options) ps (effectiveSteps (.start options) ps steps) =
        some (t, ps') ∧ t.IsQuietFormOf s) ∧
    (∀ earlier f g later, f.name ≠ g.name → FunctionTable.Exchangeable earlier f g later) ∧
    ∀ calls, (FunctionTable.ofCalls calls).IsRebuilt := by
  refine ⟨?_, ?_, ?_⟩
  · intro options ps steps s ps' hrun
    have hrecords := records_of_runSteps (Session.Records.start options) hrun
    have hquiet := runSteps_effectiveSteps hrun
    exact ⟨hrecords.functions.isRebuilt, s.silent, hquiet, s.isQuietFormOf_silent⟩
  · intro earlier f g later hne
    exact FunctionTable.exchangeable_of_ne hne earlier later
  · intro calls
    exact (FunctionTable.represents_ofCalls calls).isRebuilt

/-- Of the script with duplicates, the report and the two later calls for `f` are left out. -/
theorem effectiveSteps_duplicateSteps : effectiveSteps (.start ⟨true, 7⟩) #[] duplicateSteps =
    [.block none, .define "f" none 0, .advanceLine, .setLine 20,
      .registerNative "g" fun _ => .ok .null, .advanceLine] := by
  simp [duplicateSteps, effectiveSteps, Step.run, Step.session?, Step.product?, Step.isVain,
    Products.find?, Part.content?, optionally, Session.start, Session.advanceLine, Session.setLine,
    Session.define, Session.registerNative, Session.report, Session.functions_addFunction,
    FunctionTable.contains_add, FunctionTable.contains_empty]

/-- The script runs, and so does what is left of it.  A call for `g` may be made before or after one
for `f`, although it is turned down. -/
theorem rejections_leave_no_trace_of_duplicates :
    (∃ s t ps, runSteps (.start ⟨true, 7⟩) #[] duplicateSteps = some (s, ps) ∧
      runSteps (.start ⟨true, 7⟩) #[] [.block none, .define "f" none 0, .advanceLine, .setLine 20,
        .registerNative "g" fun _ => .ok .null, .advanceLine] = some (t, ps) ∧
      t.IsQuietFormOf s) ∧
    FunctionTable.Exchangeable [⟨"g", 1, .userDefined none ⟨[]⟩⟩]
      ⟨"f", 2, .userDefined none ⟨[]⟩⟩ ⟨"g", 3, .userDefined none ⟨[]⟩⟩ [] := by
  constructor
  · obtain ⟨s, ps, hrun⟩ : ∃ s ps,
        runSteps (.start ⟨true, 7⟩) #[] duplicateSteps = some (s, ps) := ⟨_, _, rfl⟩
    obtain ⟨-, t, ht, hquiet⟩ :=
      rejections_leave_no_trace.1 ⟨true, 7⟩ #[] duplicateSteps s ps hrun
    rw [effectiveSteps_duplicateSteps] at ht
    exact ⟨s, t, ps, hrun, ht, hquiet⟩
  · exact rejections_leave_no_trace.2.1 _ _ _ [] (by decide)

end ScriptTree
