import ScriptTree.Proofs.Construction.Run
import ScriptTree.Proofs.FunctionTable

/-!
# Translations of constructions

A translation replaces trees of every sort by trees of the same sort.  When it turns what one
session builds into what another session builds from translated parts, the two sessions run the
same steps side by side and their products correspond.  Here that is proved once for all steps; a
particular translation supplies one equation for each way of building a tree.
-/

namespace ScriptTree

/-- A replacement for the trees of each sort. -/
structure Translation where
  expression : Expression → Expression
  statement : Statement → Statement
  elsif : Elsif → Elsif
  block : Block → Block

namespace Translation

variable (T : Translation)

/-! ## Products -/

/-- Lists are translated element by element, and names not at all. -/
def product : Product → Product
  | .expression e => .expression (T.expression e)
  | .statement s => .statement (T.statement s)
  | .elsif c => .elsif (T.elsif c)
  | .block b => .block (T.block b)
  | .names list => .names list
  | .arguments list => .arguments (list.map T.expression)
  | .statements list => .statements (list.map T.statement)
  | .elsifs list => .elsifs (list.map T.elsif)

def products (ps : Products) : Products :=
  ps.map T.product

@[simp] theorem products_empty : T.products #[] = #[] :=
  Array.map_empty

theorem products_push (ps : Products) (p : Product) :
    T.products (ps.push p) = (T.products ps).push (T.product p) :=
  Array.map_push

/-- What is translated with a part of a kind. -/
def content {α : Type} : Part α → α → α
  | .expression => T.expression
  | .statement => T.statement
  | .elsif => T.elsif
  | .block => T.block
  | .names => id
  | .arguments => Chain.map T.expression
  | .statements => Chain.map T.statement
  | .elsifs => Chain.map T.elsif

theorem content?_product {α : Type} (part : Part α) (p : Product) :
    part.content? (T.product p) = (part.content? p).map (T.content part) := by
  cases part <;> cases p <;> rfl

theorem find?_products {α : Type} (ps : Products) (part : Part α) (r : Ref) :
    (T.products ps).find? part r = (ps.find? part r).map (T.content part) := by
  rw [Products.find?, Products.find?, products, Array.getElem?_map]
  cases ps[r]? with
  | none => rfl
  | some p => exact T.content?_product part p

/-- A part that may be left out is translated where it is present. -/
theorem optionally_products {α : Type} (ps : Products) (part : Part α) (r : Option Ref) :
    optionally ((T.products ps).find? part) r =
      (optionally (ps.find? part) r).map (Option.map (T.content part)) := by
  cases r with
  | none => rfl
  | some r =>
      simp only [optionally, T.find?_products, Option.map_map, Function.comp_def, Option.map_some]

/-! ## Sessions that correspond -/

/-- What `s'` builds from translated parts is the translation of what `s` builds. -/
structure Commutes (s s' : Session) : Prop where
  literal : ∀ value, s'.literal value = T.expression (s.literal value)
  identifier : ∀ name, s'.identifier name = T.expression (s.identifier name)
  assign : ∀ target operand,
    s'.assign target (T.expression operand) = T.expression (s.assign target operand)
  binary : ∀ op left right, s'.binary op (T.expression left) (T.expression right) =
    T.expression (s.binary op left right)
  minus : ∀ operand, s'.minus (T.expression operand) = T.expression (s.minus operand)
  call : ∀ name arguments, s'.call name (arguments.map (Chain.map T.expression)) =
    T.expression (s.call name arguments)
  expressionStatement : ∀ e,
    s'.expressionStatement (T.expression e) = T.statement (s.expressionStatement e)
  globalStatement : ∀ names,
    s'.globalStatement names = T.statement (s.globalStatement names)
  ifElse : ∀ condition thenBlock elsifs elseBlock,
    s'.ifElse (T.expression condition) (T.block thenBlock)
        (elsifs.map (Chain.map T.elsif)) (elseBlock.map T.block) =
      T.statement (s.ifElse condition thenBlock elsifs elseBlock)
  whileLoop : ∀ condition block, s'.whileLoop (T.expression condition) (T.block block) =
    T.statement (s.whileLoop condition block)
  forLoop : ∀ init condition post block,
    s'.forLoop (init.map T.expression) (condition.map T.expression)
        (post.map T.expression) (T.block block) =
      T.statement (s.forLoop init condition post block)
  returnWith : ∀ value,
    s'.returnWith (value.map T.expression) = T.statement (s.returnWith value)
  breakLoop : s'.breakLoop = T.statement s.breakLoop
  continueLoop : s'.continueLoop = T.statement s.continueLoop
  elsif : ∀ condition block,
    (⟨T.expression condition, T.block block⟩ : Elsif) = T.elsif ⟨condition, block⟩
  block : ∀ statements : List Statement,
    (⟨statements.map T.statement⟩ : Block) = T.block ⟨statements⟩

variable {T} {s s' : Session}

theorem Commutes.ofChain (h : T.Commutes s s') (list : Option (Chain Statement)) :
    Block.ofChain (list.map (Chain.map T.statement)) = T.block (Block.ofChain list) := by
  rw [Block.ofChain, Block.ofChain, ← h.block]
  cases list <;> rfl

/-- Corresponding sessions make corresponding products out of corresponding parts. -/
theorem Commutes.product? (h : T.Commutes s s') (ps : Products) (step : Step) :
    step.product? s' (T.products ps) = (step.product? s ps).map T.product := by
  -- Every step first finds its parts and then builds; both commute with the translation.
  cases step <;>
    simp only [Step.product?, T.find?_products, T.optionally_products, content, id_eq,
      Option.bind_eq_bind, Option.bind_map, Option.map_bind, Function.comp_def,
      Option.pure_def, Option.map_some, Option.map_none, product, Chain.map_singleton,
      Chain.map_append, Chain.map_appendTo, h.literal, h.identifier, h.assign, h.binary,
      h.minus, h.call, h.expressionStatement, h.globalStatement, h.ifElse, h.whileLoop,
      h.forLoop, h.returnWith, h.breakLoop, h.continueLoop, h.elsif, h.ofChain]

/-! ## Functions -/

variable (T)

/-- Host functions are not translated. -/
def functionBody : FunctionBody → FunctionBody
  | .userDefined parameters block => .userDefined parameters (T.block block)
  | .native run => .native run

/-- A function keeps its name, its line and its parameters. -/
def definition (f : FunctionDefinition) : FunctionDefinition :=
  { f with body := T.functionBody f.body }

@[simp] theorem definition_name (f : FunctionDefinition) : (T.definition f).name = f.name := rfl

/-- A table keeps its names and their places. -/
def table (t : FunctionTable) : FunctionTable :=
  { t with definitions := t.definitions.map T.definition }

@[simp] theorem table_empty : T.table .empty = .empty := by
  simp only [table, FunctionTable.empty, Array.map_empty]

theorem toList_table (t : FunctionTable) :
    (T.table t).toList = t.toList.map T.definition := by
  simp only [FunctionTable.toList, table, Array.toList_map, List.map_reverse]

theorem lookup_table (t : FunctionTable) (name : String) :
    (T.table t).lookup name = (t.lookup name).map T.definition := by
  simp only [FunctionTable.lookup, table, Array.getElem?_map, Option.map_bind,
    Function.comp_def]

theorem offer_table (t : FunctionTable) (f : FunctionDefinition) :
    (T.table t).offer (T.definition f) =
      (T.table (t.offer f).1, (t.offer f).2.map T.definition) :=
  t.offer_mapDefinitions T.definition_name f

/-! ## Runs -/

variable (retarget : Options → Options)

/-- The session with other options that stands where `s` stands. -/
def session (s : Session) : Session where
  options := retarget s.options
  line := s.line
  functions := T.table s.functions
  diagnostics := s.diagnostics

theorem session_start (options : Options)
    (h : (retarget options).firstLine = options.firstLine) :
    T.session retarget (.start options) = .start (retarget options) := by
  simp only [session, Session.start, table_empty, h]

theorem addFunction_session (s : Session) (f : FunctionDefinition) :
    (T.session retarget s).addFunction (T.definition f) =
      T.session retarget (s.addFunction f) := by
  have hoffer : (T.session retarget s).functions.offer (T.definition f) =
      (T.table (s.functions.offer f).1, (s.functions.offer f).2.map T.definition) :=
    T.offer_table s.functions f
  rw [Session.addFunction, Session.addFunction, hoffer]
  rcases s.functions.offer f with ⟨t, _ | rejected⟩
  · rfl
  · simp only [session, Option.map_some, Session.report, definition_name]

theorem define_session (s : Session) (name : String) (parameters : Option (Chain String))
    (block : Block) :
    (T.session retarget s).define name parameters (T.block block) =
      T.session retarget (s.define name parameters block) :=
  T.addFunction_session retarget s ⟨name, s.line, .userDefined parameters block⟩

theorem registerNative_session (s : Session) (name : String) (run : HostFunction) :
    (T.session retarget s).registerNative name run =
      T.session retarget (s.registerNative name run) :=
  T.addFunction_session retarget s ⟨name, 0, .native run⟩

theorem session?_session (s : Session) (ps : Products) (step : Step) :
    step.session? (T.session retarget s) (T.products ps) =
      (step.session? s ps).map (T.session retarget) := by
  cases step with
  | define name parameters body =>
      simp only [Step.session?, T.find?_products, T.optionally_products, content, Option.map_id,
        id_eq, define_session, Option.bind_eq_bind, Option.bind_map, Option.map_bind,
        Function.comp_def, Option.pure_def, Option.map_some]
  | registerNative name run =>
      exact congrArg some (T.registerNative_session retarget s name run)
  | _ => rfl

variable {T retarget}

/-- A step on a session and on the one that stands in its place. -/
theorem Commutes.run {s : Session} (h : T.Commutes s (T.session retarget s))
    (ps : Products) (step : Step) :
    step.run (T.session retarget s) (T.products ps) =
      (step.run s ps).map (Prod.map (T.session retarget) T.products) := by
  rw [Step.run, Step.run, T.session?_session retarget s ps step]
  cases step.session? s ps with
  | some s' => rfl
  | none =>
      simp only [Option.map_none, h.product? ps step, Option.map_map, Function.comp_def,
        Prod.map, products_push]

section Run

variable {P : Options → Prop}
  (h : ∀ s : Session, P s.options → T.Commutes s (T.session retarget s))

include h

/-- Whole runs correspond, and one fails where the other does. -/
theorem runSteps_session {s : Session} (hs : P s.options) (ps : Products)
    (steps : List Step) :
    runSteps (T.session retarget s) (T.products ps) steps =
      (runSteps s ps steps).map (Prod.map (T.session retarget) T.products) := by
  induction steps generalizing s ps with
  | nil => rfl
  | cons step steps ih =>
      rw [runSteps_cons, runSteps_cons, (h s hs).run ps step]
      cases hstep : step.run s ps with
      | none => rfl
      | some state =>
          obtain ⟨s', ps'⟩ := state
          have hs' : P s'.options := by
            rw [Step.options_of_run hstep]
            exact hs
          exact ih hs' ps'

theorem runOn_session {ss : Array Session} (hss : ∀ s ∈ ss, P s.options) (ps : Products)
    (i : Nat) (step : Step) :
    step.runOn (ss.map (T.session retarget)) (T.products ps) i =
      (step.runOn ss ps i).map
        (Prod.map (Array.map (T.session retarget)) T.products) := by
  rw [Step.runOn, Step.runOn, Array.getElem?_map]
  cases hs : ss[i]? with
  | none => rfl
  | some s =>
      have hrun := (h s (hss s (Array.mem_of_getElem? hs))).run ps step
      simp only [Option.map_some, Option.bind_eq_bind, Option.bind_some, hrun,
        Option.bind_map, Option.map_bind, Option.pure_def, Function.comp_def, Prod.map,
        Array.map_setIfInBounds]

/-- Runs on several sessions at once correspond. -/
theorem runStepsOn_session {ss : Array Session} (hss : ∀ s ∈ ss, P s.options)
    (ps : Products) (steps : List (Nat × Step)) :
    runStepsOn (ss.map (T.session retarget)) (T.products ps) steps =
      (runStepsOn ss ps steps).map
        (Prod.map (Array.map (T.session retarget)) T.products) := by
  induction steps generalizing ss ps with
  | nil => rfl
  | cons action steps ih =>
      obtain ⟨i, step⟩ := action
      rw [runStepsOn_cons, runStepsOn_cons, runOn_session h hss ps i step]
      cases hrun : step.runOn ss ps i with
      | none => rfl
      | some state => exact ih (Step.options_of_runOn hrun hss) state.2

end Run

end Translation

end ScriptTree
