import ScriptTree.Script

/-!
# Runs of construction steps

A step either acts on the session or adds one product.  Whatever it does, it leaves the options of
the session alone.  Several sessions may share their products: then every step also names the
session on which it is to run.
-/

namespace ScriptTree

theorem Session.options_addFunction (s : Session) (f : FunctionDefinition) :
    (s.addFunction f).options = s.options := by
  rw [addFunction]
  rcases s.functions.offer f with ⟨t, _ | rejected⟩ <;> rfl

namespace Step

/-- The two things that a step can do. -/
theorem run_eq_some {s s' : Session} {ps ps' : Products} {step : Step}
    (h : step.run s ps = some (s', ps')) :
    (step.session? s ps = some s' ∧ ps' = ps) ∨
      ∃ p, step.product? s ps = some p ∧ s' = s ∧ ps' = ps.push p := by
  rw [run] at h
  cases hs : step.session? s ps with
  | some t =>
      simp only [hs, Option.some.injEq, Prod.mk.injEq] at h
      exact Or.inl ⟨congrArg some h.1, h.2.symm⟩
  | none =>
      simp only [hs, Option.map_eq_some_iff, Prod.mk.injEq] at h
      obtain ⟨p, hp, hsession, hproducts⟩ := h
      exact Or.inr ⟨p, hp, hsession.symm, hproducts.symm⟩

theorem options_of_session? {s s' : Session} {ps : Products} {step : Step}
    (h : step.session? s ps = some s') : s'.options = s.options := by
  cases step with
  | setLine line => cases h; rfl
  | advanceLine => cases h; rfl
  | define name parameters body =>
      simp only [session?, Option.bind_eq_bind, Option.bind_eq_some_iff, Option.pure_def,
        Option.some.injEq] at h
      obtain ⟨list, -, block, -, rfl⟩ := h
      exact s.options_addFunction _
  | registerNative name run =>
      cases h
      exact s.options_addFunction _
  | report diagnostic => cases h; rfl
  | _ => cases h

/-- No step changes the options of the session. -/
theorem options_of_run {s s' : Session} {ps ps' : Products} {step : Step}
    (h : step.run s ps = some (s', ps')) : s'.options = s.options := by
  rcases run_eq_some h with ⟨hs, -⟩ | ⟨p, -, rfl, -⟩
  · exact options_of_session? hs
  · rfl

end Step

theorem runSteps_cons (s : Session) (ps : Products) (step : Step) (steps : List Step) :
    runSteps s ps (step :: steps) =
      (step.run s ps).bind fun state => runSteps state.1 state.2 steps :=
  List.foldlM_cons

/-! ## Several sessions -/

/-- Runs a step on one of several sessions. -/
def Step.runOn (ss : Array Session) (ps : Products) (i : Nat) (step : Step) :
    Option (Array Session × Products) := do
  let s ← ss[i]?
  let (s, ps) ← step.run s ps
  return (ss.setIfInBounds i s, ps)

/-- Runs steps one after the other, each on the session with its number.  The products are shared,
so a tree may pass through several sessions. -/
def runStepsOn (ss : Array Session) (ps : Products) (steps : List (Nat × Step)) :
    Option (Array Session × Products) :=
  steps.foldlM (fun (ss, ps) (i, step) => step.runOn ss ps i) (ss, ps)

theorem runStepsOn_cons (ss : Array Session) (ps : Products) (i : Nat) (step : Step)
    (steps : List (Nat × Step)) :
    runStepsOn ss ps ((i, step) :: steps) =
      (step.runOn ss ps i).bind fun state => runStepsOn state.1 state.2 steps :=
  List.foldlM_cons

theorem Step.runOn_eq_some {ss ss' : Array Session} {ps ps' : Products} {i : Nat}
    {step : Step} (h : step.runOn ss ps i = some (ss', ps')) :
    ∃ s s', ss[i]? = some s ∧ step.run s ps = some (s', ps') ∧
      ss' = ss.setIfInBounds i s' := by
  simp only [runOn, Option.bind_eq_bind, Option.bind_eq_some_iff, Option.pure_def,
    Option.some.injEq, Prod.mk.injEq] at h
  obtain ⟨s, hs, ⟨s', qs⟩, hrun, rfl, rfl⟩ := h
  exact ⟨s, s', hs, hrun, rfl⟩

theorem Step.options_of_runOn {P : Options → Prop} {ss ss' : Array Session}
    {ps ps' : Products} {i : Nat} {step : Step}
    (h : step.runOn ss ps i = some (ss', ps')) (hss : ∀ s ∈ ss, P s.options) :
    ∀ s ∈ ss', P s.options := by
  obtain ⟨s, s', hs, hrun, rfl⟩ := runOn_eq_some h
  intro u hu
  rcases Array.mem_or_eq_of_mem_setIfInBounds hu with hu | rfl
  · exact hss u hu
  · rw [options_of_run hrun]
    exact hss s (Array.mem_of_getElem? hs)

end ScriptTree
