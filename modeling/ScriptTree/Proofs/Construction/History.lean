import ScriptTree.Proofs.Construction.Parts

/-!
# What a run leaves behind

The current line after some steps is decided by the steps alone.  Products are never changed and
never renumbered: a run only adds to them.  So what a step did can be read off the products at the
end of the run, as well as off those it found.
-/

namespace ScriptTree

/-! ## Runs in two parts -/

theorem runSteps_append (s : Session) (ps : Products) (earlier later : List Step) :
    runSteps s ps (earlier ++ later) =
      (runSteps s ps earlier).bind fun state => runSteps state.1 state.2 later :=
  List.foldlM_append

/-- A run that ends has passed through a state after each number of steps. -/
theorem exists_runSteps_take {s s' : Session} {ps ps' : Products} {steps : List Step}
    (h : runSteps s ps steps = some (s', ps')) (n : Nat) :
    ∃ s₀ ps₀, runSteps s ps (steps.take n) = some (s₀, ps₀) ∧
      runSteps s₀ ps₀ (steps.drop n) = some (s', ps') := by
  rw [← List.take_append_drop n steps, runSteps_append, Option.bind_eq_some_iff] at h
  obtain ⟨⟨s₀, ps₀⟩, hearlier, hlater⟩ := h
  exact ⟨s₀, ps₀, hearlier, hlater⟩

/-- What every step does to the state, and what can be repeated, is done by every run. -/
theorem runSteps_related {R : Session × Products → Session × Products → Prop}
    (refl : ∀ state, R state state)
    (trans : ∀ {a b c}, R a b → R b c → R a c)
    (run : ∀ {s s' : Session} {ps ps' : Products} {step : Step},
      step.run s ps = some (s', ps') → R (s, ps) (s', ps'))
    {s s' : Session} {ps ps' : Products} {steps : List Step}
    (h : runSteps s ps steps = some (s', ps')) : R (s, ps) (s', ps') := by
  induction steps generalizing s ps with
  | nil =>
      cases h
      exact refl _
  | cons step steps ih =>
      rw [runSteps_cons, Option.bind_eq_some_iff] at h
      obtain ⟨⟨s₁, ps₁⟩, hstep, hsteps⟩ := h
      exact trans (run hstep) (ih hsteps)

/-! ## The current line -/

/-- The line after a step.  Only moves change it. -/
def Step.lineAfter (line : Line) : Step → Line
  | .setLine line' => line'
  | .advanceLine => line + 1
  | _ => line

/-- The line after some steps. -/
def lineAfter (line : Line) (steps : List Step) : Line :=
  steps.foldl Step.lineAfter line

theorem Session.line_addFunction (s : Session) (f : FunctionDefinition) :
    (s.addFunction f).line = s.line := by
  rw [addFunction]
  rcases s.functions.offer f with ⟨t, _ | rejected⟩ <;> rfl

namespace Step

theorem line_of_session? {s s' : Session} {ps : Products} {step : Step}
    (h : step.session? s ps = some s') : s'.line = step.lineAfter s.line := by
  cases step with
  | setLine line => cases h; rfl
  | advanceLine => cases h; rfl
  | define name parameters body =>
      simp only [session?, Option.bind_eq_bind, Option.bind_eq_some_iff, Option.pure_def,
        Option.some.injEq] at h
      obtain ⟨list, -, block, -, rfl⟩ := h
      exact s.line_addFunction _
  | registerNative name run =>
      cases h
      exact s.line_addFunction _
  | report diagnostic => cases h; rfl
  | _ => cases h

theorem lineAfter_of_product? {s : Session} {ps : Products} {step : Step} {p : Product}
    (h : step.product? s ps = some p) (line : Line) : step.lineAfter line = line := by
  cases step with
  | setLine | advanceLine => cases h
  | _ => rfl

theorem line_of_run {s s' : Session} {ps ps' : Products} {step : Step}
    (h : step.run s ps = some (s', ps')) : s'.line = step.lineAfter s.line := by
  rcases run_eq_some h with ⟨hs, -⟩ | ⟨p, hp, rfl, -⟩
  · exact line_of_session? hs
  · exact (lineAfter_of_product? hp s'.line).symm

end Step

theorem line_of_runSteps {s s' : Session} {ps ps' : Products} {steps : List Step}
    (h : runSteps s ps steps = some (s', ps')) : s'.line = lineAfter s.line steps := by
  induction steps generalizing s ps with
  | nil => cases h; rfl
  | cons step steps ih =>
      rw [runSteps_cons, Option.bind_eq_some_iff] at h
      obtain ⟨⟨s₁, ps₁⟩, hstep, hsteps⟩ := h
      rw [ih hsteps, Step.line_of_run hstep]
      rfl

theorem options_of_runSteps {s s' : Session} {ps ps' : Products} {steps : List Step}
    (h : runSteps s ps steps = some (s', ps')) : s'.options = s.options :=
  runSteps_related (R := fun a b => b.1.options = a.1.options) (fun _ => rfl)
    (fun hab hbc => hbc.trans hab) Step.options_of_run h

/-! ## Products -/

theorem Step.products_of_run {s s' : Session} {ps ps' : Products} {step : Step}
    (h : step.run s ps = some (s', ps')) : ps.toList <+: ps'.toList := by
  rcases run_eq_some h with ⟨-, rfl⟩ | ⟨p, -, -, rfl⟩
  · exact List.prefix_refl ps'.toList
  · rw [Array.toList_push]
    exact List.prefix_append ps.toList [p]

theorem products_of_runSteps {s s' : Session} {ps ps' : Products} {steps : List Step}
    (h : runSteps s ps steps = some (s', ps')) : ps.toList <+: ps'.toList :=
  runSteps_related (R := fun a b => a.2.toList <+: b.2.toList) (fun _ => List.prefix_refl _)
    List.IsPrefix.trans Step.products_of_run h

/-- A product keeps its number. -/
theorem Products.getElem?_of_kept {ps ps' : Products} (h : ps.toList <+: ps'.toList) {r : Ref}
    {p : Product} (hp : ps[r]? = some p) : ps'[r]? = some p := by
  rw [← Array.getElem?_toList] at hp ⊢
  obtain ⟨hlt, -⟩ := List.getElem?_eq_some_iff.mp hp
  rw [List.prefix_iff_getElem?.mp h r hlt, ← List.getElem?_eq_getElem hlt, hp]

namespace Step

/-- The parts of a step that runs are there. -/
theorem exists_part_of_run {s : Session} {ps : Products} {step : Step}
    (h : (step.run s ps).isSome) {part : Ref × Product.Kind} (hpart : part ∈ step.parts) :
    ∃ q, ps[part.1]? = some q ∧ q.kind = part.2 := by
  obtain ⟨r, kind⟩ := part
  rw [isSome_run_eq_fits] at h
  have hkind : (ps.kinds[r]? == some kind) = true := List.all_eq_true.mp h (r, kind) hpart
  rwa [Products.getElem?_kinds, beq_iff_eq, Option.map_eq_some_iff] at hkind

/-- A step that has run finds the same parts later on. -/
theorem getElem?_part_of_kept {s : Session} {ps ps' : Products} (h : ps.toList <+: ps'.toList)
    {step : Step} (hrun : (step.run s ps).isSome) {part : Ref × Product.Kind}
    (hpart : part ∈ step.parts) : ps'[part.1]? = ps[part.1]? := by
  obtain ⟨q, hq, -⟩ := exists_part_of_run hrun hpart
  rw [hq, Products.getElem?_of_kept h hq]

/-- A step reads no product but its parts. -/
theorem product?_congr (s : Session) {ps ps' : Products} {step : Step}
    (h : ∀ part ∈ step.parts, ps[part.1]? = ps'[part.1]?) :
    step.product? s ps = step.product? s ps' := by
  have hoptional : ∀ {α : Type} (part : Part α) (r : Option Ref),
      (∀ r', r = some r' → ps[r']? = ps'[r']?) →
      optionally (ps.find? part) r = optionally (ps'.find? part) r := by
    intro α part r hr
    cases r with
    | none => rfl
    | some r => simp only [optionally, Products.find?, hr r rfl]
  cases step <;>
    simp only [parts, List.map_append, List.append_assoc, List.cons_append, List.nil_append,
      List.mem_append, List.mem_cons, List.mem_map, List.not_mem_nil, Option.mem_toList, or_false,
      or_imp, and_imp, forall_and, forall_eq, forall_exists_index, forall_apply_eq_imp_iff₂,
      false_implies, implies_true] at h <;>
    simp +contextual [product?, Products.find?, h, hoptional]

/-- What a step makes out of its parts it makes again later on. -/
theorem product?_of_kept {s : Session} {ps ps' : Products} (h : ps.toList <+: ps'.toList)
    {step : Step} {p : Product} (hp : step.product? s ps = some p) :
    step.product? s ps' = some p := by
  have hrun : (step.run s ps).isSome = true := by
    rw [isSome_run, hp, Option.isSome_some, Bool.or_true]
  rw [← hp]
  exact product?_congr s fun part hpart => getElem?_part_of_kept h hrun hpart

end Step

end ScriptTree
