import ScriptTree.Proofs.Construction.History
import ScriptTree.Proofs.FunctionTable

/-!
# The account of a session

Most steps only read the session.  Those that ask it to record something are its calls: definitions,
host functions and reports.  The functions and the diagnostics of a session are a function of the
calls that were made, each at its line: the first call with a name defines the function, every
further one is a duplicate, and reports are passed on as they are.
-/

namespace ScriptTree

/-! ## Calls -/

/-- What a session can be asked to record. -/
inductive Request where
  | define (name : String) (parameters : Option (Chain String)) (block : Block)
  | registerNative (name : String) (run : HostFunction)
  | report (diagnostic : Diagnostic)

/-- A request with the line that was current when it was made. -/
structure Call where
  line : Line
  request : Request

namespace Call

/-- The definition that a call offers: at its own line for the script, at line zero for the host. -/
def definition? (c : Call) : Option FunctionDefinition :=
  match c.request with
  | .define name parameters block => some ⟨name, c.line, .userDefined parameters block⟩
  | .registerNative name run => some ⟨name, 0, .native run⟩
  | .report _ => none

/-- The definitions that some calls offer, in the order of the calls. -/
def definitions (calls : List Call) : List FunctionDefinition :=
  calls.filterMap definition?

/-- Whether an earlier call has taken a name. -/
def isTaken (earlier : List Call) (name : String) : Bool :=
  ((definitions earlier).map (·.name)).contains name

/-- Whether a call offers a definition under a name that is taken. -/
def isDuplicate (earlier : List Call) (c : Call) : Bool :=
  c.definition?.any fun f => isTaken earlier f.name

/-- What a call adds to the diagnostics. -/
def diagnostic? (earlier : List Call) (c : Call) : Option Diagnostic :=
  match c.request with
  | .define name _ _ | .registerNative name _ =>
    if isTaken earlier name then some (.duplicateFunction name c.line) else none
  | .report diagnostic => some diagnostic

/-- Every call together with the calls before it. -/
def withEarlier (earlier : List Call) : List Call → List (List Call × Call)
  | [] => []
  | c :: calls => (earlier, c) :: withEarlier (earlier ++ [c]) calls

/-- The diagnostics of some calls, in the order of the calls. -/
def diagnostics (calls : List Call) : List Diagnostic :=
  (withEarlier [] calls).filterMap fun (earlier, c) => c.diagnostic? earlier

/-- The calls that are turned down. -/
def duplicates (calls : List Call) : List (List Call × Call) :=
  (withEarlier [] calls).filter fun (earlier, c) => c.isDuplicate earlier

theorem withEarlier_concat (earlier calls : List Call) (c : Call) :
    withEarlier earlier (calls ++ [c]) =
      withEarlier earlier calls ++ [(earlier ++ calls, c)] := by
  induction calls generalizing earlier with
  | nil => simp [withEarlier]
  | cons first calls ih =>
      rw [List.cons_append, withEarlier, withEarlier, ih, List.append_assoc, List.singleton_append,
        List.cons_append]

theorem definitions_concat (calls : List Call) (c : Call) :
    definitions (calls ++ [c]) = definitions calls ++ c.definition?.toList := by
  rw [definitions, List.filterMap_append]
  cases h : c.definition? <;> simp [definitions, h]

theorem diagnostics_concat (calls : List Call) (c : Call) :
    diagnostics (calls ++ [c]) = diagnostics calls ++ (c.diagnostic? calls).toList := by
  rw [diagnostics, withEarlier_concat, List.filterMap_append]
  cases h : c.diagnostic? calls <;> simp [diagnostics, h]

theorem duplicates_concat (calls : List Call) (c : Call) :
    duplicates (calls ++ [c]) =
      duplicates calls ++ if c.isDuplicate calls then [(calls, c)] else [] := by
  rw [duplicates, withEarlier_concat, List.filter_append]
  cases h : c.isDuplicate calls <;> simp [duplicates, h]

theorem isTaken_eq_true_iff (earlier : List Call) (name : String) :
    isTaken earlier name = true ↔ name ∈ (definitions earlier).map (·.name) :=
  List.contains_iff_mem

/-- Every offered definition is either accepted or a duplicate. -/
theorem length_duplicates_add (calls : List Call) :
    (duplicates calls).length + (FunctionTable.accepted (definitions calls)).length =
      (definitions calls).length := by
  induction calls using List.reverseRecOn with
  | nil => rfl
  | append_singleton calls c ih =>
      rw [duplicates_concat, definitions_concat]
      cases hdefinition : c.definition? with
      | none =>
          have hduplicate : c.isDuplicate calls = false := by
            rw [isDuplicate, hdefinition]
            rfl
          rw [hduplicate, Option.toList_none, List.append_nil]
          simpa using ih
      | some f =>
          have hduplicate : c.isDuplicate calls = isTaken calls f.name := by
            rw [isDuplicate, hdefinition]
            rfl
          rw [hduplicate, Option.toList_some, FunctionTable.accepted_concat]
          by_cases htaken : isTaken calls f.name = true
          · rw [if_pos htaken, if_pos ((isTaken_eq_true_iff calls f.name).mp htaken)]
            simp only [List.length_append, List.length_singleton]
            omega
          · have hfree := mt (isTaken_eq_true_iff calls f.name).mpr htaken
            rw [if_neg htaken, if_neg hfree]
            simp only [List.length_append, List.length_singleton, List.length_nil]
            omega

end Call

/-! ## The calls of a run -/

/-- The request that a step makes, if `ps` has its parts. -/
def Step.request? (ps : Products) : Step → Option Request
  | .define name parameters body => do
    let parameters ← optionally (ps.find? .names) parameters
    return .define name parameters (← ps.find? .block body)
  | .registerNative name run => some (.registerNative name run)
  | .report diagnostic => some (.report diagnostic)
  | _ => none

/-- Whether a step offers a definition. -/
def Step.registers : Step → Bool
  | .define _ _ _ | .registerNative _ _ => true
  | _ => false

/-- The calls that some steps make, starting at a line; `ps` are all products there will be. -/
def callsFrom (ps : Products) : Line → List Step → List Call
  | _, [] => []
  | line, step :: steps =>
    ((step.request? ps).map fun request => ⟨line, request⟩).toList ++
      callsFrom ps (step.lineAfter line) steps

/-! ## One step -/

/-- Does what is requested, at the current line. -/
def Session.perform (s : Session) : Request → Session
  | .define name parameters block => s.define name parameters block
  | .registerNative name run => s.registerNative name run
  | .report diagnostic => s.report diagnostic

theorem Step.request?_congr {ps ps' : Products} {step : Step}
    (h : ∀ part ∈ step.parts, ps[part.1]? = ps'[part.1]?) :
    step.request? ps = step.request? ps' := by
  cases step with
  | define name parameters body =>
      have hbody : ps[body]? = ps'[body]? := h (body, .block) (by simp [parts])
      have hnames : optionally (ps.find? .names) parameters =
          optionally (ps'.find? .names) parameters := by
        cases parameters with
        | none => rfl
        | some r =>
            have hr : ps[r]? = ps'[r]? := h (r, .names) List.mem_cons_self
            simp only [optionally, Products.find?, hr]
      simp only [request?, hnames, Products.find?, hbody]
  | _ => rfl

/-- A step makes one call, or it leaves everything but the line alone. -/
theorem Step.effect_of_run {s s' : Session} {ps ps' : Products} {step : Step}
    (h : step.run s ps = some (s', ps')) :
    (step.request? ps = none ∧ step.registers = false ∧
        s' = s.setLine (step.lineAfter s.line)) ∨
      ∃ request, step.request? ps = some request ∧
        step.registers = (Call.definition? ⟨s.line, request⟩).isSome ∧ s' = s.perform request := by
  rcases run_eq_some h with ⟨hs, -⟩ | ⟨p, hp, rfl, -⟩
  · cases step with
    | setLine line =>
        cases hs
        exact Or.inl ⟨rfl, rfl, rfl⟩
    | advanceLine =>
        cases hs
        exact Or.inl ⟨rfl, rfl, rfl⟩
    | define name parameters body =>
        simp only [session?, Option.bind_eq_bind, Option.bind_eq_some_iff, Option.pure_def,
          Option.some.injEq] at hs
        obtain ⟨list, hlist, block, hblock, rfl⟩ := hs
        refine Or.inr ⟨.define name list block, ?_, rfl, rfl⟩
        simp only [request?, hlist, hblock, Option.bind_eq_bind, Option.bind_some, Option.pure_def]
    | registerNative name run =>
        cases hs
        exact Or.inr ⟨.registerNative name run, rfl, rfl, rfl⟩
    | report diagnostic =>
        cases hs
        exact Or.inr ⟨.report diagnostic, rfl, rfl, rfl⟩
    | _ => cases hs
  · have hline := lineAfter_of_product? hp s'.line
    left
    rw [hline]
    cases step with
    | define | registerNative | report => cases hp
    | _ => exact ⟨rfl, rfl, rfl⟩

/-! ## The state of a session and its calls -/

theorem Session.functions_addFunction (s : Session) (f : FunctionDefinition) :
    (s.addFunction f).functions = s.functions.add f := by
  rw [addFunction, FunctionTable.add]
  rcases s.functions.offer f with ⟨t, _ | rejected⟩ <;> rfl

theorem Session.diagnostics_addFunction (s : Session) (f : FunctionDefinition) :
    (s.addFunction f).diagnostics =
      if s.functions.contains f.name then s.diagnostics.push (.duplicateFunction f.name s.line)
      else s.diagnostics := by
  rw [addFunction, FunctionTable.offer]
  cases s.functions.contains f.name <;> rfl

/-- A session whose functions and diagnostics come from some calls. -/
structure Session.Records (s : Session) (calls : List Call) : Prop where
  functions : s.functions.Represents (Call.definitions calls)
  diagnostics : s.diagnostics.toList = Call.diagnostics calls

namespace Session.Records

variable {s : Session} {calls : List Call}

theorem start (options : Options) : (Session.start options).Records [] where
  functions := ⟨FunctionTable.wellFormed_empty, rfl⟩
  diagnostics := rfl

theorem setLine (h : s.Records calls) (line : Line) : (s.setLine line).Records calls :=
  ⟨h.functions, h.diagnostics⟩

/-- A call that offers a definition either enters it or is reported. -/
theorem addFunction (h : s.Records calls) {c : Call} {f : FunctionDefinition}
    (hdefinition : c.definition? = some f)
    (hdiagnostic : c.diagnostic? calls =
      if Call.isTaken calls f.name then some (.duplicateFunction f.name s.line) else none) :
    (s.addFunction f).Records (calls ++ [c]) := by
  constructor
  case functions =>
    rw [Session.functions_addFunction, Call.definitions_concat, hdefinition]
    exact h.functions.add f
  case diagnostics =>
    have htaken : s.functions.contains f.name = Call.isTaken calls f.name := by
      rw [Bool.eq_iff_iff, h.functions.contains_eq_true_iff, Call.isTaken_eq_true_iff]
    rw [Session.diagnostics_addFunction, Call.diagnostics_concat, hdiagnostic, htaken,
      ← h.diagnostics]
    cases Call.isTaken calls f.name with
    | true => exact Array.toList_push
    | false => exact (List.append_nil _).symm

theorem perform (h : s.Records calls) (request : Request) :
    (s.perform request).Records (calls ++ [⟨s.line, request⟩]) := by
  cases request with
  | define name parameters block => exact h.addFunction rfl rfl
  | registerNative name run => exact h.addFunction rfl rfl
  | report diagnostic =>
      constructor
      · rw [Call.definitions_concat]
        exact (List.append_nil (Call.definitions calls)).symm ▸ h.functions
      · rw [Call.diagnostics_concat, ← h.diagnostics]
        exact Array.toList_push

end Session.Records

/-- The calls of a run can be read off its products at the end, as its parts are still there. -/
theorem callsFrom_cons {s s₁ s' : Session} {ps ps₁ ps' : Products} {step : Step}
    {steps : List Step} (hstep : step.run s ps = some (s₁, ps₁))
    (hsteps : runSteps s₁ ps₁ steps = some (s', ps')) :
    callsFrom ps' s.line (step :: steps) =
      ((step.request? ps).map fun request => ⟨s.line, request⟩).toList ++
        callsFrom ps' s₁.line steps := by
  have hkept := (Step.products_of_run hstep).trans (products_of_runSteps hsteps)
  have hsome : (step.run s ps).isSome = true := by
    rw [hstep]
    rfl
  have hrequest : step.request? ps' = step.request? ps :=
    Step.request?_congr fun part hpart => Step.getElem?_part_of_kept hkept hsome hpart
  rw [callsFrom, hrequest, Step.line_of_run hstep]

/-- After a run a session records the calls of the run on top of what it recorded before. -/
theorem records_of_runSteps {s s' : Session} {ps ps' : Products} {calls : List Call}
    {steps : List Step} (h : s.Records calls)
    (hrun : runSteps s ps steps = some (s', ps')) :
    s'.Records (calls ++ callsFrom ps' s.line steps) := by
  induction steps generalizing s ps calls with
  | nil =>
      cases hrun
      rwa [callsFrom, List.append_nil]
  | cons step steps ih =>
      rw [runSteps_cons, Option.bind_eq_some_iff] at hrun
      obtain ⟨⟨s₁, ps₁⟩, hstep, hsteps⟩ := hrun
      rw [callsFrom_cons hstep hsteps]
      rcases Step.effect_of_run hstep with ⟨hnone, -, rfl⟩ | ⟨request, hsome, -, rfl⟩
      · rw [hnone]
        exact ih (h.setLine _) hsteps
      · rw [hsome, Option.map_some, Option.toList_some, ← List.append_assoc]
        exact ih (h.perform request) hsteps

/-- Every step that offers a definition is one of the calls. -/
theorem length_definitions_callsFrom {s s' : Session} {ps ps' : Products} {steps : List Step}
    (hrun : runSteps s ps steps = some (s', ps')) :
    (Call.definitions (callsFrom ps' s.line steps)).length = steps.countP Step.registers := by
  induction steps generalizing s ps with
  | nil => rfl
  | cons step steps ih =>
      rw [runSteps_cons, Option.bind_eq_some_iff] at hrun
      obtain ⟨⟨s₁, ps₁⟩, hstep, hsteps⟩ := hrun
      rw [callsFrom_cons hstep hsteps, List.countP_cons, ← ih hsteps]
      rcases Step.effect_of_run hstep with ⟨hnone, hregisters, -⟩ | ⟨request, hsome, hregisters, -⟩
      · rw [hnone, hregisters]
        rfl
      · rw [hsome, hregisters, Option.map_some, Option.toList_some, List.singleton_append]
        cases hdefinition : Call.definition? ⟨s.line, request⟩ <;>
          simp [Call.definitions, hdefinition]

/-! ## What stays -/

/-- All that was recorded is still recorded, in the same order. -/
structure Session.KeptBy (s s' : Session) : Prop where
  diagnostics : s.diagnostics.toList <+: s'.diagnostics.toList
  definitions : s.functions.definitions.toList <+: s'.functions.definitions.toList
  lookup : ∀ name f, s.functions.lookup name = some f → s'.functions.lookup name = some f

theorem Call.diagnostics_append (calls more : List Call) :
    diagnostics calls <+: diagnostics (calls ++ more) := by
  induction more using List.reverseRecOn with
  | nil => rw [List.append_nil]
  | append_singleton more c ih =>
      rw [← List.append_assoc, diagnostics_concat]
      exact ih.trans (List.prefix_append _ _)

theorem FunctionTable.accepted_append (calls more : List FunctionDefinition) :
    accepted calls <+: accepted (calls ++ more) := by
  rw [accepted_append_eq]
  exact List.prefix_append _ _

theorem Session.Records.keptBy {s s' : Session} {calls more : List Call} (h : s.Records calls)
    (h' : s'.Records (calls ++ more)) : s.KeptBy s' := by
  have hdefinitions : Call.definitions (calls ++ more) =
      Call.definitions calls ++ Call.definitions more := List.filterMap_append
  constructor
  case diagnostics =>
    rw [h.diagnostics, h'.diagnostics]
    exact Call.diagnostics_append calls more
  case definitions =>
    rw [h.functions.definitions, h'.functions.definitions, hdefinitions]
    exact FunctionTable.accepted_append _ _
  case lookup =>
    intro name f hf
    rw [h.functions.lookup_eq_find?] at hf
    rw [h'.functions.lookup_eq_find?, hdefinitions, List.find?_append, hf]
    rfl

/-- What a run has recorded and built after some of its steps is there at its end. -/
theorem kept_of_runSteps {options : Options} {s : Session} {ps ps' : Products}
    {steps : List Step} (hrun : runSteps (.start options) ps steps = some (s, ps')) (n : Nat) :
    ∃ s₀ ps₀, runSteps (.start options) ps (steps.take n) = some (s₀, ps₀) ∧
      s₀.KeptBy s ∧ ps₀.toList <+: ps'.toList := by
  obtain ⟨s₀, ps₀, hearlier, hlater⟩ := exists_runSteps_take hrun n
  have hfirst := records_of_runSteps (Session.Records.start options) hearlier
  have hkept := hfirst.keptBy (records_of_runSteps hfirst hlater)
  exact ⟨s₀, ps₀, hearlier, hkept, products_of_runSteps hlater⟩

/-! ## The account -/

/-- A session whose options, functions and diagnostics are those that its calls ask for. -/
structure Session.Accounts (s : Session) (calls : List Call) : Prop where
  /-- The reports, and one duplicate for each call under a taken name, in the order of the calls. -/
  diagnostics : s.diagnostics.toList = Call.diagnostics calls
  /-- The first definition offered under each name, the most recent one first. -/
  functions : s.functions.toList = (FunctionTable.accepted (Call.definitions calls)).reverse
  lookup : ∀ name, s.functions.lookup name = (Call.definitions calls).find? (·.name == name)
  finish : s.finish = match Call.diagnostics calls with
    | [] => .ok s.functions
    | errors => .error ⟨errors⟩

theorem Session.Records.accounts {s : Session} {calls : List Call} (h : s.Records calls) :
    s.Accounts calls where
  diagnostics := h.diagnostics
  functions := by rw [FunctionTable.toList, h.functions.definitions]
  lookup := h.functions.lookup_eq_find?
  finish := by
    rw [finish, hasErrors, ← Array.isEmpty_toList, h.diagnostics]
    cases Call.diagnostics calls <;> rfl

theorem Session.Records.size_eq {s : Session} {calls : List Call} (h : s.Records calls) :
    (Call.duplicates calls).length + s.functions.size = (Call.definitions calls).length := by
  have hsize : s.functions.size = (FunctionTable.accepted (Call.definitions calls)).length := by
    rw [← h.functions.definitions, Array.length_toList]
    rfl
  rw [hsize]
  exact Call.length_duplicates_add calls

/-- Whatever is built with a session, and whatever trees are there before, its functions and
diagnostics are accounted for by the calls at their lines.  Nothing that was recorded is changed or
lost later on, and only moves change the line. -/
theorem session_accounts (options : Options) (ps : Products) (steps : List Step) :
    (runSteps (.start options) ps steps).isSome = stepsFit ps.kinds steps ∧
    ∀ s ps', runSteps (.start options) ps steps = some (s, ps') →
      s.options = options ∧ s.line = lineAfter options.firstLine steps ∧
      s.Accounts (callsFrom ps' options.firstLine steps) ∧
      (Call.duplicates (callsFrom ps' options.firstLine steps)).length + s.functions.size =
        steps.countP Step.registers ∧
      ∀ n, ∃ s₀ ps₀, runSteps (.start options) ps (steps.take n) = some (s₀, ps₀) ∧
        s₀.KeptBy s := by
  refine ⟨isSome_runSteps (.start options) ps steps, ?_⟩
  intro s ps' hrun
  have hrecords := records_of_runSteps (Session.Records.start options) hrun
  rw [List.nil_append] at hrecords
  have hcount := length_definitions_callsFrom hrun
  refine ⟨options_of_runSteps hrun, line_of_runSteps hrun, hrecords.accounts, ?_, ?_⟩
  · rw [← hcount]
    exact hrecords.size_eq
  · intro n
    obtain ⟨s₀, ps₀, hearlier, hkept, -⟩ := kept_of_runSteps hrun n
    exact ⟨s₀, ps₀, hearlier, hkept⟩

/-- Three functions under two names, with a report between them. -/
def duplicateSteps : List Step :=
  [.block none, .define "f" none 0, .advanceLine, .registerNative "f" fun _ => .ok .null,
    .report (.duplicateFunction "h" 3), .setLine 20, .registerNative "g" fun _ => .ok .null,
    .advanceLine, .define "f" none 0]

/-- The first `f` stays, with the line at which it was defined; the second and the third one are
reported at the lines of their calls, the second although it belongs to the host. -/
theorem session_accounts_duplicates :
    ∃ s ps, runSteps (.start ⟨true, 7⟩) #[] duplicateSteps = some (s, ps) ∧
      s.diagnostics.toList = [.duplicateFunction "f" 8, .duplicateFunction "h" 3,
        .duplicateFunction "f" 21] ∧
      s.functions.toList.map (fun f => (f.name, f.line, f.isUserDefined)) =
        [("g", 0, false), ("f", 7, true)] ∧
      s.line = 21 := by
  obtain ⟨s, ps, hrun, hcalls⟩ : ∃ s ps,
      runSteps (.start ⟨true, 7⟩) #[] duplicateSteps = some (s, ps) ∧
      callsFrom ps 7 duplicateSteps =
        [⟨7, .define "f" none ⟨[]⟩⟩, ⟨8, .registerNative "f" fun _ => .ok .null⟩,
          ⟨8, .report (.duplicateFunction "h" 3)⟩, ⟨20, .registerNative "g" fun _ => .ok .null⟩,
          ⟨21, .define "f" none ⟨[]⟩⟩] := ⟨_, _, rfl, rfl⟩
  obtain ⟨-, hline, haccounts, -, -⟩ := (session_accounts ⟨true, 7⟩ #[] duplicateSteps).2 s ps hrun
  rw [hcalls] at haccounts
  refine ⟨s, ps, hrun, haccounts.diagnostics, ?_, hline⟩
  rw [haccounts.functions]
  rfl

end ScriptTree
