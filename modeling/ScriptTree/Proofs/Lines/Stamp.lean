import ScriptTree.Proofs.Construction.Account

/-!
# The line of a node

A node is stamped with the current line by the call that builds it, and nothing that happens later
touches the stamp: not the nodes around it, not the lists that take it up, not the function whose
body it ends up in.  So whatever stands in a tree, at whatever depth, is the unchanged result of one
of the calls and carries the line of that call.
-/

namespace ScriptTree

/-! ## What stands in a tree -/

/-- What a product is put together from. -/
def Product.parts : Product → List Product
  | .expression (.literal _ _) | .expression (.identifier _ _) => []
  | .expression (.assign _ _ operand) | .expression (.minus _ operand) => [.expression operand]
  | .expression (.binary _ _ left right) => [.expression left, .expression right]
  | .expression (.call _ _ list) => list.toList.map .arguments
  | .statement (.expression _ e) => [.expression e]
  | .statement (.global _ list) => [.names list]
  | .statement (.ifElse _ condition body clauses last) =>
    [.expression condition, .block body] ++ clauses.toList.map .elsifs ++ last.toList.map .block
  | .statement (.whileLoop _ condition body) => [.expression condition, .block body]
  | .statement (.forLoop _ init condition post body) =>
    (init.toList ++ condition.toList ++ post.toList).map .expression ++ [.block body]
  | .statement (.returnWith _ value) => value.toList.map .expression
  | .statement (.breakLoop _) | .statement (.continueLoop _) => []
  | .elsif c => [.expression c.condition, .block c.block]
  | .block b => b.statements.map .statement
  | .names _ => []
  | .arguments list => list.toList.map .expression
  | .statements list => list.toList.map .statement
  | .elsifs list => list.toList.map .elsif

/-- The body of a function, if it is one of the script. -/
def FunctionDefinition.parts (f : FunctionDefinition) : List Product :=
  match f.body with
  | .userDefined _ block => [.block block]
  | .native _ => []

/-- What stands in a product at any depth, the product itself included. -/
inductive Product.Within : Product → Product → Prop where
  | self (p : Product) : Within p p
  | part {q r p : Product} : Within q r → r ∈ p.parts → Within q p

/-- Expressions and statements carry a line, and nothing else does. -/
def Product.line? : Product → Option Line
  | .expression e => some e.line
  | .statement s => some s.line
  | _ => none

/-! ## What a call finds -/

section Find

variable {ps : Products} {r : Ref}

/-- A part that may be left out is a product where it is there. -/
theorem Products.mem_of_optionally {α : Type} {part : Part α} {r : Option Ref} {x : Option α}
    (h : optionally (ps.find? part) r = some x) : ∀ a ∈ x.toList, part.wrap a ∈ ps := by
  cases r with
  | none =>
      cases h
      exact fun a ha => absurd ha List.not_mem_nil
  | some r =>
      rw [optionally, Option.map_eq_some_iff] at h
      obtain ⟨a, ha, rfl⟩ := h
      rw [Option.toList_some, List.forall_mem_singleton]
      exact Array.mem_of_getElem? (find?_eq_some_iff.mp ha)

/-- The statements of a list that may be missing are elements of a list that was found. -/
theorem Products.mem_parts_of_optionally {r : Option Ref} {x : Option (Chain Statement)}
    (h : optionally (ps.find? .statements) r = some x) {q : Product}
    (hq : q ∈ ((x.map Chain.toList).getD []).map .statement) :
    ∃ list ∈ ps, q ∈ list.parts := by
  cases x with
  | none => cases hq
  | some list =>
      have hlist : .statements list ∈ ps :=
        mem_of_optionally h list List.mem_cons_self
      exact ⟨.statements list, hlist, hq⟩

/-- A list that grew by a product has the elements of the list that was found, and the product. -/
theorem Products.mem_of_mem_concat {earlier : List Product} {last q : Product} (hlast : last ∈ ps)
    (hearlier : ∀ q ∈ earlier, ∃ list ∈ ps, q ∈ list.parts) (hq : q ∈ earlier ++ [last]) :
    q ∈ ps ∨ ∃ list ∈ ps, q ∈ list.parts := by
  rcases List.mem_append.mp hq with hq | hq
  · exact Or.inr (hearlier q hq)
  · obtain rfl := List.mem_singleton.mp hq
    exact Or.inl hlast

end Find

/-! ## One call -/

/-- A folded operator takes the line of the call that folded it, as an operator that stays does. -/
theorem Session.line_binary (s : Session) (op : BinaryOperator) (left right : Expression) :
    (s.binary op left right).line = s.line := by
  rw [binary]
  split <;> rfl

theorem Session.line_minus (s : Session) (operand : Expression) :
    (s.minus operand).line = s.line := by
  rw [minus]
  split <;> rfl

/-- A folded operator has no operands any more. -/
theorem Session.parts_binary (s : Session) (op : BinaryOperator) (left right : Expression) :
    (Product.expression (s.binary op left right)).parts ⊆
      [.expression left, .expression right] := by
  rw [binary]
  split
  · exact List.nil_subset _
  · exact List.Subset.refl _

theorem Session.parts_minus (s : Session) (operand : Expression) :
    (Product.expression (s.minus operand)).parts ⊆ [.expression operand] := by
  rw [minus]
  split
  · exact List.nil_subset _
  · exact List.Subset.refl _

namespace Step

variable {s : Session} {ps : Products} {step : Step} {p : Product}

/-- A node carries the current line, and so does a literal that takes its place. -/
theorem line_of_product? (h : step.product? s ps = some p) :
    ∀ line ∈ p.line?, line = s.line := by
  intro line hline
  cases step <;>
    simp only [product?, Option.bind_eq_bind, Option.bind_eq_some_iff, Option.pure_def,
      Option.some.injEq, reduceCtorEq] at h
  case binary =>
    obtain ⟨left, -, right, -, rfl⟩ := h
    rw [← s.line_binary, ← Option.some.injEq, ← hline]
    rfl
  case minus =>
    obtain ⟨operand, -, rfl⟩ := h
    rw [← s.line_minus, ← Option.some.injEq, ← hline]
    rfl
  -- The others stamp the node themselves, or make something without a line.
  all_goals
    grind [Product.line?, Expression.line, Statement.line, Session.literal, Session.identifier,
      Session.assign, Session.call, Session.expressionStatement, Session.globalStatement,
      Session.ifElse, Session.whileLoop, Session.forLoop, Session.returnWith, Session.breakLoop,
      Session.continueLoop]

/-- What a call puts together are products that it found, or elements of a list that it found. -/
theorem mem_of_product? (h : step.product? s ps = some p) :
    ∀ q ∈ p.parts, q ∈ ps ∨ ∃ list ∈ ps, q ∈ list.parts := by
  intro q hq
  have hexpressions : ∀ {r x}, optionally (ps.find? .expression) r = some x →
      ∀ e ∈ x.toList, .expression e ∈ ps := Products.mem_of_optionally
  have hblocks : ∀ {r x}, optionally (ps.find? .block) r = some x →
      ∀ b ∈ x.toList, .block b ∈ ps := Products.mem_of_optionally
  have harguments : ∀ {r x}, optionally (ps.find? .arguments) r = some x →
      ∀ list ∈ x.toList, .arguments list ∈ ps := Products.mem_of_optionally
  have helsifs : ∀ {r x}, optionally (ps.find? .elsifs) r = some x →
      ∀ list ∈ x.toList, .elsifs list ∈ ps := Products.mem_of_optionally
  cases step <;>
    simp only [product?, Option.bind_eq_bind, Option.bind_eq_some_iff, Option.pure_def,
      Option.some.injEq, reduceCtorEq, Products.find?_eq_some_iff, Part.wrap] at h
  case binary =>
    obtain ⟨left, hleft, right, hright, rfl⟩ := h
    left
    rcases List.mem_pair.mp (s.parts_binary _ left right hq) with rfl | rfl
    · exact Array.mem_of_getElem? hleft
    · exact Array.mem_of_getElem? hright
  case minus =>
    obtain ⟨operand, hoperand, rfl⟩ := h
    obtain rfl := List.mem_singleton.mp (s.parts_minus operand hq)
    exact Or.inl (Array.mem_of_getElem? hoperand)
  case appendArgument =>
    obtain ⟨list, hlist, last, hlast, rfl⟩ := h
    rw [Product.parts, Chain.toList_append, List.map_append] at hq
    refine Products.mem_of_mem_concat (Array.mem_of_getElem? hlast) ?_ hq
    exact fun q hq => ⟨.arguments list, Array.mem_of_getElem? hlist, hq⟩
  case appendElsif =>
    obtain ⟨list, hlist, last, hlast, rfl⟩ := h
    rw [Product.parts, Chain.toList_append, List.map_append] at hq
    refine Products.mem_of_mem_concat (Array.mem_of_getElem? hlast) ?_ hq
    exact fun q hq => ⟨.elsifs list, Array.mem_of_getElem? hlist, hq⟩
  case appendStatement =>
    obtain ⟨list, hlist, last, hlast, rfl⟩ := h
    rw [Product.parts, Chain.toList_appendTo, List.map_append] at hq
    refine Products.mem_of_mem_concat (Array.mem_of_getElem? hlast) ?_ hq
    exact fun q hq => Products.mem_parts_of_optionally hlist hq
  case block =>
    obtain ⟨list, hlist, rfl⟩ := h
    exact Or.inr (Products.mem_parts_of_optionally hlist hq)
  -- The others put together what they found as it is.
  all_goals
    grind [Product.parts, Chain.toList_singleton, Session.literal, Session.identifier,
      Session.assign, Session.call, Session.expressionStatement, Session.globalStatement,
      Session.ifElse, Session.whileLoop, Session.forLoop, Session.returnWith, Session.breakLoop,
      Session.continueLoop]

/-- A call reads the current line and whether to fold, and nothing else of the session. -/
theorem product?_session {t : Session} (hline : s.line = t.line)
    (hfolding : s.options.constantFolding = t.options.constantFolding) :
    step.product? s ps = step.product? t ps := by
  obtain ⟨⟨folding, firstLine⟩, line, functions, diagnostics⟩ := s
  obtain ⟨⟨folding', firstLine'⟩, line', functions', diagnostics'⟩ := t
  obtain rfl : line = line' := hline
  obtain rfl : folding = folding' := hfolding
  cases step <;> rfl

end Step

/-! ## All calls of a run -/

/-- A call that makes a product, with the line at which it is made. -/
structure Construction where
  line : Line
  step : Step

/-- What a call makes of some products, on a session that folds or on one that does not. -/
def Construction.product? (folding : Bool) (ps : Products) (c : Construction) : Option Product :=
  c.step.product? (.start ⟨folding, c.line⟩) ps

/-- The calls among some steps that make a product, in order, starting at a line. -/
def constructions : Line → List Step → List Construction
  | _, [] => []
  | line, step :: steps =>
    (if step.makes.isSome then [⟨line, step⟩] else []) ++
      constructions (step.lineAfter line) steps

/-- The new products of a run are what its calls make at their lines, in the order of the calls,
and what each call would still make at the end of the run. -/
theorem made_of_runSteps {s s' : Session} {ps ps' : Products} {steps : List Step}
    (h : runSteps s ps steps = some (s', ps')) :
    ∃ made, ps'.toList = ps.toList ++ made ∧
      List.Forall₂ (fun c p => c.product? s.options.constantFolding ps' = some p)
        (constructions s.line steps) made := by
  induction steps generalizing s ps with
  | nil =>
      cases h
      exact ⟨[], (List.append_nil _).symm, .nil⟩
  | cons step steps ih =>
      rw [runSteps_cons, Option.bind_eq_some_iff] at h
      obtain ⟨⟨s₁, ps₁⟩, hstep, hsteps⟩ := h
      obtain ⟨made, hps', hmade⟩ := ih hsteps
      rw [Step.options_of_run hstep, Step.line_of_run hstep] at hmade
      rw [constructions]
      rcases Step.run_eq_some hstep with ⟨hs, rfl⟩ | ⟨p, hp, rfl, rfl⟩
      · rw [Step.makes_of_session? hs]
        exact ⟨made, hps', hmade⟩
      · have hkept := (Step.products_of_run hstep).trans (products_of_runSteps hsteps)
        have hstill : Construction.product? s₁.options.constantFolding ps' ⟨s₁.line, step⟩ =
            some p := by
          rw [← Step.product?_of_kept hkept hp]
          exact Step.product?_session rfl rfl
        rw [Step.makes_of_product? hp]
        refine ⟨p :: made, ?_, .cons hstill hmade⟩
        rw [hps', Array.toList_push, List.append_assoc, List.singleton_append]

/-! ## Trees and functions keep to the products -/

/-- Whatever trees and functions are put together from are products themselves. -/
structure Session.Closed (s : Session) (ps : Products) : Prop where
  parts : ∀ p ∈ ps, ∀ q ∈ p.parts, q ∈ ps
  bodies : ∀ f ∈ s.functions.toList, ∀ q ∈ f.parts, q ∈ ps

namespace Session.Closed

variable {s s' : Session} {ps ps' : Products}

theorem start (options : Options) : (Session.start options).Closed #[] where
  parts p hp := by simp at hp
  bodies f hf := by simp [Session.start, FunctionTable.toList, FunctionTable.empty] at hf

/-- A further product is put together from those that are there. -/
theorem push (h : s.Closed ps) {step : Step} {p : Product}
    (hp : step.product? s ps = some p) : s.Closed (ps.push p) where
  parts := by
    intro r hr q hq
    rw [Array.mem_push] at hr ⊢
    left
    rcases hr with hr | rfl
    · exact h.parts r hr q hq
    · rcases Step.mem_of_product? hp q hq with hmem | ⟨list, hlist, hmem⟩
      · exact hmem
      · exact h.parts list hlist q hmem
  bodies f hf q hq := Array.mem_push_of_mem p (h.bodies f hf q hq)

theorem addFunction (h : s.Closed ps) {f : FunctionDefinition}
    (hf : ∀ q ∈ f.parts, q ∈ ps) : (s.addFunction f).Closed ps where
  parts := h.parts
  bodies := by
    intro g hg
    rw [functions_addFunction] at hg
    rcases FunctionTable.mem_toList_add hg with rfl | hg
    · exact hf
    · exact h.bodies g hg

theorem run (h : s.Closed ps) {step : Step} (hrun : step.run s ps = some (s', ps')) :
    s'.Closed ps' := by
  rcases Step.run_eq_some hrun with ⟨hs, rfl⟩ | ⟨p, hp, rfl, rfl⟩
  · cases step with
    | setLine line => cases hs; exact ⟨h.parts, h.bodies⟩
    | advanceLine => cases hs; exact ⟨h.parts, h.bodies⟩
    | define name parameters body =>
        simp only [Step.session?, Option.bind_eq_bind, Option.bind_eq_some_iff,
          Option.pure_def, Option.some.injEq] at hs
        obtain ⟨list, -, block, hblock, rfl⟩ := hs
        refine h.addFunction fun q hq => ?_
        obtain rfl := List.mem_singleton.mp hq
        exact Array.mem_of_getElem? (Products.find?_eq_some_iff.mp hblock)
    | registerNative name host =>
        cases hs
        exact h.addFunction fun q hq => absurd hq List.not_mem_nil
    | report diagnostic => cases hs; exact ⟨h.parts, h.bodies⟩
    | _ => cases hs
  · exact h.push hp

theorem runSteps (h : s.Closed ps) {steps : List Step}
    (hrun : runSteps s ps steps = some (s', ps')) : s'.Closed ps' :=
  runSteps_related (R := fun a b => a.1.Closed a.2 → b.1.Closed b.2) (fun _ => id)
    (fun hab hbc ha => hbc (hab ha)) (fun hstep ha => ha.run hstep) hrun h

/-- Nothing stands in a tree, at any depth, that is not a product. -/
theorem mem_of_within (h : s.Closed ps) {p q : Product} (hp : p ∈ ps) (hq : q.Within p) :
    q ∈ ps := by
  induction hq with
  | self => exact hp
  | part _ hr ih => exact ih (h.parts _ hp _ hr)

end Session.Closed

/-! ## Stamps -/

/-- A session and products in which every node carries the line of the call that built it. -/
structure Session.Stamped (s : Session) (ps : Products) (calls : List Construction) : Prop where
  size : ps.size = calls.length
  /-- A product is what the call with its number makes of the products at the line of the call. -/
  made : ∀ c p, (c, p) ∈ calls.zip ps.toList →
    c.product? s.options.constantFolding ps = some p
  /-- What stands in a tree or in a function, at any depth, is what some call made, and if it has
  a line then it is the line of that call. -/
  line : ∀ p q, (p ∈ ps ∨ ∃ f ∈ s.functions.toList, p ∈ f.parts) → q.Within p →
    ∃ c, (c, q) ∈ calls.zip ps.toList ∧ ∀ own ∈ q.line?, own = c.line

theorem stamped_of_runSteps {options : Options} {s : Session} {ps : Products}
    {steps : List Step} (h : runSteps (.start options) #[] steps = some (s, ps)) :
    s.Stamped ps (constructions options.firstLine steps) := by
  obtain ⟨made, hps, hmade⟩ := made_of_runSteps h
  obtain rfl : ps.toList = made := hps
  have hfolding : (Session.start options).options = s.options := (options_of_runSteps h).symm
  rw [hfolding] at hmade
  change List.Forall₂ _ (constructions options.firstLine steps) _ at hmade
  obtain ⟨hlength, hzip⟩ := List.forall₂_iff_zip.mp hmade
  have hclosed := (Session.Closed.start options).runSteps h
  constructor
  case size =>
    rw [← Array.length_toList]
    exact hlength.symm
  case made =>
    intro c p hc
    exact hzip hc
  case line =>
    intro p q hp hq
    have hp' : p ∈ ps := by
      rcases hp with hp | ⟨f, hf, hp⟩
      · exact hp
      · exact hclosed.bodies f hf p hp
    have hmem : q ∈ ((constructions options.firstLine steps).zip ps.toList).map Prod.snd := by
      rw [List.map_snd_zip (Nat.le_of_eq hlength.symm), Array.mem_toList_iff]
      exact hclosed.mem_of_within hp' hq
    obtain ⟨⟨c, _⟩, hc, rfl⟩ := List.mem_map.mp hmem
    exact ⟨c, hc, Step.line_of_product? (hzip hc)⟩

end ScriptTree
