import ScriptTree.Proofs.Construction.Account
import ScriptTree.Proofs.Lines.Stamp

/-!
# Lists in call order

A chain grows at its end only, so it holds the items in the order in which they were added,
whichever of the ways to add an item was taken each time.  A session builds all lists of a program
out of chains: parameters, global names, arguments, clauses and statements.  So the list in a
finished tree or function is the list of the items that were passed to the calls that made it, in
the order of the calls, with nothing lost, repeated or moved.
-/

namespace ScriptTree

/-! ## Chains -/

namespace Chain

variable {α : Type}

/-- The chains, or their absence, that adding items one by one leads to. -/
inductive Built : List α → Option (Chain α) → Prop where
  | absent : Built [] none
  | singleton (item : α) : Built [item] (some (singleton item))
  | append {items : List α} {c : Chain α} (earlier : Built items (some c)) (item : α) :
      Built (items ++ [item]) (some (c.append item))
  | appendTo {items : List α} {c : Option (Chain α)} (earlier : Built items c) (item : α) :
      Built (items ++ [item]) (some (appendTo c item))

/-- A chain shows some items and nothing else, in this order, however it is read. -/
structure Shows (c : Chain α) (items : List α) : Prop where
  elements : c.toList = items
  length : c.length = items.length
  nonempty : 0 < c.length
  first : items.head? = some c.head ∧ c.get? 0 = some c.head
  index : ∀ i, c.get? i = items[i]?
  loop : ∀ {β : Type} {m : Type → Type} [Monad m] (start : β) (body : α → β → m (ForInStep β)),
    forIn c start body = forIn items start body

theorem shows_toList (c : Chain α) : c.Shows c.toList where
  elements := rfl
  length := c.length_toList.symm
  nonempty := Nat.succ_pos _
  first := ⟨rfl, rfl⟩
  index _ := rfl
  loop := c.forIn_eq_forIn_toList

/-- An absent chain stands for the items of an empty list. -/
theorem Built.items_eq {items : List α} {c : Option (Chain α)} (h : Built items c) :
    items = (c.map toList).getD [] := by
  induction h with
  | absent | singleton => rfl
  | append _ item ih => exact congrArg (· ++ [item]) ih
  | @appendTo items c _ item ih =>
      rw [Option.map_some, Option.getD_some, toList_appendTo, ← ih]

/-- A chain is there exactly if an item was added, and then it shows the items. -/
theorem Built.isSome_iff_and_shows {items : List α} {c : Option (Chain α)} (h : Built items c) :
    (c.isSome = true ↔ items ≠ []) ∧ ∀ chain ∈ c, chain.Shows items := by
  obtain rfl := h.items_eq
  cases c with
  | none => exact ⟨by simp, fun chain hchain => nomatch hchain⟩
  | some chain =>
      refine ⟨iff_of_true rfl (List.cons_ne_nil _ _), ?_⟩
      rintro _ ⟨⟩
      exact chain.shows_toList

end Chain

/-! ## What is passed to the calls -/

/-- An item of a list: a name, or the number of an earlier product. -/
abbrev Item := String ⊕ Ref

/-- An element of a list: a name or a tree. -/
abbrev Element := String ⊕ Product

/-- The elements of the list that a product is or holds. -/
def Product.elements : Product → List Element
  | .names list => list.toList.map .inl
  | .arguments list => list.toList.map fun e => .inr (.expression e)
  | .statements list => list.toList.map fun s => .inr (.statement s)
  | .elsifs list => list.toList.map fun c => .inr (.elsif c)
  | .expression (.call _ _ list) =>
    list.toList.flatMap fun list => list.toList.map fun e => .inr (.expression e)
  | .statement (.global _ list) => list.toList.map .inl
  | .statement (.ifElse _ _ _ list _) =>
    list.toList.flatMap fun list => list.toList.map fun c => .inr (.elsif c)
  | .block b => b.statements.map fun s => .inr (.statement s)
  | .expression _ | .statement _ | .elsif _ => []

/-- The items of a list that may be left out. -/
def itemsOf (passed : Array (List Item)) (list : Option Ref) : List Item :=
  (list.map fun r => passed[r]?.getD []).getD []

/-- The items passed for the product of a step, given those passed for the products before: a call
that starts a list passes one, a call that continues a list passes one more, and a call that makes a
tree of a list takes the items over. -/
def Step.items (passed : Array (List Item)) : Step → List Item
  | .newNames name => [.inl name]
  | .appendName list name => itemsOf passed list ++ [.inl name]
  | .newArguments item | .newStatements item | .newElsifs item => [.inr item]
  | .appendArgument list item | .appendElsif list item => itemsOf passed list ++ [.inr item]
  | .appendStatement list item => itemsOf passed list ++ [.inr item]
  | .call _ list | .ifElse _ _ list _ | .block list => itemsOf passed list
  | .globalStatement list => itemsOf passed list
  | _ => []

/-- The items passed for each product of some steps, in the order of the products. -/
def passedItems (passed : Array (List Item)) (steps : List Step) : Array (List Item) :=
  steps.foldl (fun passed step =>
    if step.makes.isSome then passed.push (step.items passed) else passed) passed

/-- The element that an item stands for. -/
def Products.element? (ps : Products) : Item → Option Element
  | .inl name => some (.inl name)
  | .inr r => ps[r]?.map .inr

/-! ## One step -/

/-- The list of every product holds what was passed for it. -/
structure Products.Hold (ps : Products) (passed : Array (List Item)) : Prop where
  size : passed.size = ps.size
  elements : ∀ r p, ps[r]? = some p →
    p.elements.map some = (itemsOf passed (some r)).map ps.element?

namespace Products.Hold

variable {ps : Products} {passed : Array (List Item)}

theorem empty : Products.Hold #[] #[] where
  size := rfl
  elements r p h := by simp at h

/-- A list that may be left out holds what was passed for it. -/
theorem optionally {α : Type} {part : Part α} (h : ps.Hold passed) {list : Option Ref}
    {x : Option α} (hx : ScriptTree.optionally (ps.find? part) list = some x) :
    (x.toList.flatMap fun a => (part.wrap a).elements).map some =
      (itemsOf passed list).map ps.element? := by
  cases list with
  | none =>
      cases hx
      rfl
  | some r =>
      rw [ScriptTree.optionally, Option.map_eq_some_iff] at hx
      obtain ⟨a, ha, rfl⟩ := hx
      rw [Option.toList_some, List.flatMap_singleton]
      exact h.elements r (part.wrap a) (find?_eq_some_iff.mp ha)

/-- An item that stands for an element goes on to do so when there are more products. -/
theorem map_element?_push {elements : List Element} {items : List Item} (p : Product)
    (h : elements.map some = items.map ps.element?) :
    elements.map some = items.map (Products.element? (ps.push p)) := by
  rw [h]
  refine List.map_congr_left fun item hitem => ?_
  have hsome : ps.element? item ∈ elements.map some := h ▸ List.mem_map_of_mem hitem
  obtain ⟨element, -, helement⟩ := List.mem_map.mp hsome
  cases item with
  | inl name => rfl
  | inr r =>
      obtain ⟨q, hq, -⟩ := Option.map_eq_some_iff.mp helement.symm
      have hr : r < ps.size := (Array.getElem?_eq_some_iff.mp hq).1
      change ps[r]?.map _ = (ps.push p)[r]?.map _
      rw [Array.getElem?_push_lt hr, Array.getElem?_eq_getElem hr]

/-- A further product is one more list, and the others stay as they are. -/
theorem push (h : ps.Hold passed) {p : Product} {items : List Item}
    (hp : p.elements.map some = items.map ps.element?) :
    Products.Hold (ps.push p) (passed.push items) where
  size := by rw [Array.size_push, Array.size_push, h.size]
  elements := by
    intro r q hq
    rw [Array.getElem?_push] at hq
    split at hq
    case isTrue hr =>
      obtain rfl := Option.some.inj hq
      have hitems : itemsOf (passed.push items) (some r) = items := by
        simp [itemsOf, hr, ← h.size]
      rw [hitems]
      exact map_element?_push p hp
    case isFalse hr =>
      have hitems : itemsOf (passed.push items) (some r) = itemsOf passed (some r) := by
        simp [itemsOf, Array.getElem?_push, h.size, hr]
      rw [hitems]
      exact map_element?_push p (h.elements r q hq)

end Products.Hold

namespace Step

variable {s : Session} {ps : Products} {passed : Array (List Item)} {step : Step} {p : Product}

/-- What a call makes of lists holds the items of the lists, and the item that it adds. -/
theorem elements_of_product? (h : ps.Hold passed) (hp : step.product? s ps = some p) :
    p.elements.map some = (step.items passed).map ps.element? := by
  cases step <;>
    simp only [product?, Option.bind_eq_bind, Option.bind_eq_some_iff, Option.pure_def,
      Option.some.injEq, reduceCtorEq, Products.find?_eq_some_iff, Part.wrap] at hp
  case newNames name =>
    obtain rfl := hp
    rfl
  case newArguments | newStatements | newElsifs =>
    obtain ⟨first, hfirst, rfl⟩ := hp
    simp [items, Product.elements, Products.element?, hfirst]
  case appendName r name =>
    obtain ⟨list, hlist, rfl⟩ := hp
    rw [items, List.map_append, ← h.elements r _ hlist]
    simp [Product.elements, Products.element?]
  case appendArgument r _ | appendElsif r _ =>
    obtain ⟨list, hlist, last, hlast, rfl⟩ := hp
    rw [items, List.map_append, ← h.elements r _ hlist]
    simp [Product.elements, Products.element?, hlast]
  case appendStatement =>
    obtain ⟨list, hlist, last, hlast, rfl⟩ := hp
    rw [items, List.map_append, ← h.optionally hlist]
    cases list <;>
      simp [Product.elements, Products.element?, Part.wrap, Chain.toList_appendTo, hlast]
  case call =>
    obtain ⟨list, hlist, rfl⟩ := hp
    exact h.optionally hlist
  case globalStatement r =>
    obtain ⟨list, hlist, rfl⟩ := hp
    exact h.elements r (.names list) hlist
  case ifElse =>
    obtain ⟨condition, -, thenBlock, -, list, hlist, elseBlock, -, rfl⟩ := hp
    exact h.optionally hlist
  case block =>
    obtain ⟨list, hlist, rfl⟩ := hp
    rw [items, ← h.optionally hlist]
    cases list <;> simp [Product.elements, Part.wrap, Block.ofChain]
  case binary op _ _ =>
    obtain ⟨left, -, right, -, rfl⟩ := hp
    rw [Session.binary]
    split <;> rfl
  case minus =>
    obtain ⟨operand, -, rfl⟩ := hp
    rw [Session.minus]
    split <;> rfl
  -- The others neither are lists nor hold any.
  all_goals
    grind [items, Product.elements, Session.literal, Session.identifier, Session.assign,
      Session.expressionStatement, Session.whileLoop, Session.forLoop, Session.returnWith,
      Session.breakLoop, Session.continueLoop]

/-- Whatever a step does, the lists go on to hold what was passed for them. -/
theorem hold_of_run {s' : Session} {ps' : Products} (h : ps.Hold passed)
    (hrun : step.run s ps = some (s', ps')) :
    ps'.Hold (if step.makes.isSome then passed.push (step.items passed) else passed) := by
  rcases run_eq_some hrun with ⟨hs, rfl⟩ | ⟨p, hp, -, rfl⟩
  · rw [makes_of_session? hs]
    exact h
  · rw [makes_of_product? hp]
    exact h.push (elements_of_product? h hp)

end Step

/-! ## All steps -/

/-- At the end of a run every list holds what was passed for it. -/
theorem hold_of_runSteps {s s' : Session} {ps ps' : Products} {passed : Array (List Item)}
    {steps : List Step} (h : ps.Hold passed) (hrun : runSteps s ps steps = some (s', ps')) :
    ps'.Hold (passedItems passed steps) := by
  induction steps generalizing s ps passed with
  | nil =>
      cases hrun
      exact h
  | cons step steps ih =>
      rw [runSteps_cons, Option.bind_eq_some_iff] at hrun
      obtain ⟨⟨s₁, ps₁⟩, hstep, hsteps⟩ := hrun
      exact ih (step.hold_of_run h hstep) hsteps

/-! ## Parameters -/

/-- The name under which a step offers a function. -/
def Step.offers? : Step → Option String
  | .define name _ _ | .registerNative name _ => some name
  | _ => none

theorem callsFrom_append (ps : Products) (line : Line) (earlier later : List Step) :
    callsFrom ps line (earlier ++ later) =
      callsFrom ps line earlier ++ callsFrom ps (lineAfter line earlier) later := by
  induction earlier generalizing line with
  | nil => rfl
  | cons step earlier ih =>
      rw [List.cons_append, callsFrom, callsFrom, ih, List.append_assoc]
      rfl

/-- A function is defined under a name that some step offered. -/
theorem exists_offers_of_mem_definitions {ps : Products} {line : Line} {steps : List Step}
    {f : FunctionDefinition} (hf : f ∈ Call.definitions (callsFrom ps line steps)) :
    ∃ step ∈ steps, step.offers? = some f.name := by
  induction steps generalizing line with
  | nil => cases hf
  | cons step steps ih =>
      rw [callsFrom, Call.definitions, List.filterMap_append, List.mem_append] at hf
      rcases hf with hf | hf
      · obtain ⟨c, hc, hdefinition⟩ := List.mem_filterMap.mp hf
        rw [Option.mem_toList, Option.map_eq_some_iff] at hc
        obtain ⟨request, hrequest, rfl⟩ := hc
        refine ⟨step, List.mem_cons_self, ?_⟩
        cases step <;>
          simp only [Step.request?, Option.bind_eq_bind, Option.bind_eq_some_iff, Option.pure_def,
            Option.some.injEq, reduceCtorEq] at hrequest
        case define name parameters body =>
          obtain ⟨list, -, block, -, rfl⟩ := hrequest
          cases hdefinition
          rfl
        case registerNative name run =>
          subst hrequest
          cases hdefinition
          rfl
        case report diagnostic =>
          subst hrequest
          cases hdefinition
      · obtain ⟨step', hstep', hoffers⟩ := ih hf
        exact ⟨step', List.mem_cons_of_mem step hstep', hoffers⟩

/-- Names stand for themselves. -/
theorem Products.eq_map_of_names {ps : Products} {names : List String} {items : List Item}
    (h : (names.map Sum.inl : List Element).map some = items.map ps.element?) :
    names.map Sum.inl = items := by
  induction names generalizing items with
  | nil =>
      cases items with
      | nil => rfl
      | cons => cases h
  | cons name names ih =>
      cases items with
      | nil => cases h
      | cons item items =>
          obtain ⟨hfirst, hrest⟩ := List.cons.inj h
          cases item with
          | inl => cases hfirst; rw [List.map_cons, ih hrest]
          | inr r =>
              obtain ⟨p, -, hp⟩ := Option.map_eq_some_iff.mp hfirst.symm
              cases hp

/-- A name that no step offers is that of no definition. -/
theorem find?_definitions_eq_none {ps : Products} {line : Line} {steps : List Step}
    {name : String} (h : ∀ step ∈ steps, step.offers? ≠ some name) :
    (Call.definitions (callsFrom ps line steps)).find? (·.name == name) = none := by
  refine List.find?_eq_none.mpr fun f hf hname => ?_
  obtain ⟨step, hstep, hoffers⟩ := exists_offers_of_mem_definitions hf
  exact h step hstep (beq_iff_eq.mp hname ▸ hoffers)

/-- The parameters of a function are the items that were passed for its list. -/
theorem parameterNames_of_hold {ps : Products} {passed : Array (List Item)} (h : ps.Hold passed)
    {parameters : Option Ref} {list : Option (Chain String)}
    (hlist : optionally (ps.find? .names) parameters = some list) (name : String) (line : Line)
    (body : Block) :
    (FunctionDefinition.mk name line (.userDefined list body)).parameterNames.map .inl =
      itemsOf passed parameters := by
  refine @Products.eq_map_of_names ps _ _ ?_
  rw [← h.optionally hlist]
  cases list with
  | none => rfl
  | some names =>
      rw [Option.toList_some, List.flatMap_singleton]
      rfl

/-- Lists stay where they are. -/
theorem optionally_find?_of_kept {ps ps' : Products} (hkept : ps.toList <+: ps'.toList)
    {parameters : Option Ref} {list : Option (Chain String)}
    (h : optionally (ps.find? .names) parameters = some list) :
    optionally (ps'.find? .names) parameters = some list := by
  cases parameters with
  | none => exact h
  | some r =>
      obtain ⟨names, hnames, rfl⟩ := Option.map_eq_some_iff.mp h
      have hnames' := Products.getElem?_of_kept hkept (Products.find?_eq_some_iff.mp hnames)
      rw [optionally, Products.find?_eq_some_iff.mpr hnames', Option.map_some]

/-- A function that is the first one under its name has the parameters that were passed for it. -/
theorem parameterNames_of_runSteps {options : Options} {s : Session} {ps : Products}
    {earlier later : List Step} {name : String} {parameters : Option Ref} {body : Ref}
    (hrun : runSteps (.start options) #[] (earlier ++ .define name parameters body :: later) =
      some (s, ps))
    (hfirst : ∀ step ∈ earlier, step.offers? ≠ some name) :
    ∃ f, s.functions.lookup name = some f ∧ f.isUserDefined = true ∧
      f.parameterNames.map .inl =
        itemsOf (passedItems #[] (earlier ++ .define name parameters body :: later))
          parameters := by
  have hhold := hold_of_runSteps .empty hrun
  have hrecords := records_of_runSteps (Session.Records.start options) hrun
  rw [List.nil_append, callsFrom_append] at hrecords
  rw [runSteps_append, Option.bind_eq_some_iff] at hrun
  obtain ⟨⟨s₀, ps₀⟩, hearlier, hrun⟩ := hrun
  rw [runSteps_cons, Option.bind_eq_some_iff] at hrun
  obtain ⟨⟨s₁, ps₁⟩, hstep, hlater⟩ := hrun
  have hkept := (Step.products_of_run hstep).trans (products_of_runSteps hlater)
  rw [← line_of_runSteps hearlier, callsFrom_cons hstep hlater] at hrecords
  rcases Step.run_eq_some hstep with ⟨hs, -⟩ | ⟨p, hp, -⟩
  case inr => cases hp
  simp only [Step.session?, Option.bind_eq_bind, Option.bind_eq_some_iff, Option.pure_def] at hs
  obtain ⟨list, hlist, block, hblock, -⟩ := hs
  refine ⟨⟨name, s₀.line, .userDefined list block⟩, ?lookup, rfl, ?names⟩
  case lookup =>
    have hrequest : (Step.define name parameters body).request? ps₀ =
        some (.define name list block) := by
      simp only [Step.request?, hlist, hblock, Option.bind_eq_bind, Option.bind_some,
        Option.pure_def]
    change s.Records (callsFrom ps options.firstLine earlier ++ _) at hrecords
    rw [hrecords.functions.lookup_eq_find?, Call.definitions, List.filterMap_append,
      List.find?_append]
    change (List.find? _ (Call.definitions _)).or _ = _
    rw [find?_definitions_eq_none hfirst, hrequest, Option.none_or]
    change List.find? _ (FunctionDefinition.mk name s₀.line _ :: _) = _
    rw [List.find?_cons, beq_self_eq_true]
  case names =>
    exact parameterNames_of_hold hhold (optionally_find?_of_kept hkept hlist) name s₀.line block

/-! ## The lists of a program -/

/-- Chains show the items that were added, in call order.  So does every list of a construction, on
its own or in the tree that takes it up, and so do the parameters of every function that is defined;
a block without a list is empty. -/
theorem lists_keep_call_order :
    (∀ {α : Type} (items : List α) (c : Option (Chain α)), Chain.Built items c →
      (c.isSome = true ↔ items ≠ []) ∧ ∀ chain ∈ c, chain.Shows items) ∧
    ∀ options steps s ps, runSteps (.start options) #[] steps = some (s, ps) →
      ps.Hold (passedItems #[] steps) ∧
      (∀ earlier name parameters body later,
        steps = earlier ++ .define name parameters body :: later →
        (∀ step ∈ earlier, step.offers? ≠ some name) →
        ∃ f, s.functions.lookup name = some f ∧ f.isUserDefined = true ∧
          f.parameterNames.map .inl = itemsOf (passedItems #[] steps) parameters) ∧
      (Step.block none).run s ps = some (s, ps.push (.block ⟨[]⟩)) := by
  refine ⟨fun items c h => h.isSome_iff_and_shows, ?_⟩
  intro options steps s ps hrun
  refine ⟨hold_of_runSteps .empty hrun, ?_, rfl⟩
  rintro earlier name parameters body later rfl hfirst
  exact parameterNames_of_runSteps hrun hfirst

/-- A function of three parameters, two of them with one name, and a body of two statements, the
first of which had no list yet. -/
def listSteps : List Step :=
  [.newNames "a", .appendName 0 "b", .appendName 1 "a", .breakLoop, .appendStatement none 3,
    .continueLoop, .appendStatement (some 4) 5, .block (some 6), .define "f" (some 2) 7]

theorem lists_keep_call_order_duplicates :
    ∃ s ps f, runSteps (.start ⟨true, 1⟩) #[] listSteps = some (s, ps) ∧
      s.functions.lookup "f" = some f ∧ f.parameterNames = ["a", "b", "a"] ∧
      ps[7]? = some (.block ⟨[.breakLoop 1, .continueLoop 1]⟩) ∧
      ((Chain.appendTo none 5).append 3).Shows [5, 3] := by
  obtain ⟨s, ps, hrun, hblock⟩ : ∃ s ps,
      runSteps (.start ⟨true, 1⟩) #[] listSteps = some (s, ps) ∧
      ps[7]? = some (.block ⟨[.breakLoop 1, .continueLoop 1]⟩) := ⟨_, _, rfl, rfl⟩
  obtain ⟨-, hdefine, -⟩ := lists_keep_call_order.2 _ _ s ps hrun
  obtain ⟨f, hlookup, -, hnames⟩ :=
    hdefine (listSteps.take 8) "f" (some 2) 7 [] rfl (by decide)
  change _ = ["a", "b", "a"].map Sum.inl at hnames
  refine ⟨s, ps, f, hrun, hlookup, ?_, hblock, ?_⟩
  · exact List.map_injective_iff.mpr Sum.inl_injective hnames
  · exact (lists_keep_call_order.1 _ _ ((Chain.Built.absent.appendTo 5).append 3)).2 _ rfl

end ScriptTree
