import ScriptTree.Proofs.Construction.Translation
import ScriptTree.Proofs.Syntax.Statement

/-!
# Replaying a tree

Every tree can be taken apart and handed to a session again: first the parts, in the order of their
fields, and then the node itself, at the line that it carries.  Lists are replayed by a first
element and appends.  What comes out depends on the session only through its options; here it is
computed for every translation that commutes with the constructors.
-/

namespace ScriptTree

/-- Building something on a session. -/
abbrev Building : Type → Type := StateM Session

/-! ## Pieces of a replay -/

section Pieces

variable {α β : Type}

/-- Moves to a line and builds a node there. -/
def atLine (line : Line) (build : Session → α) : Building α := do
  modify fun s => s.setLine line
  return build (← get)

/-- Builds a list: the first element starts it, and every other one is appended. -/
def replayChain (items : Chain (Building α)) : Building (Chain α) := do
  let first ← items.head
  items.tail.foldlM (fun list item => return list.append (← item)) (.singleton first)

/-- Builds a list of statements, each of which is added to what there is so far: nothing, at
first. -/
def replayStatements (items : Chain (Building α)) : Building (Chain α) := do
  let first ← items.head
  items.tail.foldlM (fun list item => return Chain.appendTo (some list) (← item))
    (Chain.appendTo none first)

/-- Builds a part that may be left out. -/
def replayOptional : Option (Building α) → Building (Option α)
  | none => return none
  | some part => return some (← part)

/-- On every session that folds, or on every one that does not, the result is `a`; nothing but the
line of the session changes. -/
def Yields (folding : Bool) (m : Building α) (a : α) : Prop :=
  ∀ s : Session, s.options.constantFolding = folding →
    ∃ line, m.run s = (a, s.setLine line)

variable {folding : Bool}

theorem Yields.value (a : α) : Yields folding (pure a) a :=
  fun s _ => ⟨s.line, rfl⟩

theorem Yields.bind {m : Building α} {next : α → Building β} {a : α} {b : β}
    (hm : Yields folding m a) (hnext : Yields folding (next a) b) :
    Yields folding (m >>= next) b := by
  intro s hs
  obtain ⟨line, hfirst⟩ := hm s hs
  obtain ⟨line', hsecond⟩ := hnext (s.setLine line) hs
  refine ⟨line', ?_⟩
  rw [StateT.run_bind, hfirst]
  exact hsecond

theorem yields_atLine {line : Line} {build : Session → α} {a : α}
    (h : ∀ s : Session, s.options.constantFolding = folding → s.line = line → build s = a) :
    Yields folding (atLine line build) a := by
  intro s hs
  refine ⟨line, ?_⟩
  rw [← h (s.setLine line) hs rfl]
  rfl

/-- Appending goes on from whatever is there. -/
private theorem yields_foldlM {m : α → Building β} {f : α → β} {items : List α}
    (h : ∀ a ∈ items, Yields folding (m a) (f a)) (list : Chain β) :
    Yields folding
      ((items.map m).foldlM (fun list item => return list.append (← item)) list)
      ⟨list.head, list.tail ++ items.map f⟩ := by
  induction items generalizing list with
  | nil =>
      rw [List.map_nil, List.map_nil, List.append_nil]
      exact Yields.value list
  | cons a items ih =>
      obtain ⟨ha, hitems⟩ := List.forall_mem_cons.mp h
      rw [List.map_cons, List.foldlM_cons, List.map_cons, List.append_cons]
      refine Yields.bind ?_ (ih hitems (list.append (f a)))
      exact ha.bind (Yields.value (list.append (f a)))

theorem Yields.chain {m : α → Building β} {f : α → β} {c : Chain α}
    (h : ∀ a ∈ c.toList, Yields folding (m a) (f a)) :
    Yields folding (replayChain (c.map m)) (c.map f) := by
  obtain ⟨first, rest⟩ := c
  obtain ⟨hfirst, hrest⟩ := List.forall_mem_cons.mp h
  exact Yields.bind hfirst (yields_foldlM hrest (Chain.singleton (f first)))

theorem Yields.statements {m : α → Building β} {f : α → β} {c : Chain α}
    (h : ∀ a ∈ c.toList, Yields folding (m a) (f a)) :
    Yields folding (replayStatements (c.map m)) (c.map f) :=
  Yields.chain h

/-- A part that is there is built, and one that is not stays away. -/
theorem Yields.optional {m : α → Building β} {f : α → β} {part : Option α}
    (h : ∀ a ∈ part, Yields folding (m a) (f a)) :
    Yields folding (replayOptional (part.map m)) (part.map f) := by
  cases part with
  | none => exact Yields.value none
  | some a => exact (h a rfl).bind (Yields.value (some (f a)))

theorem Yields.names (names : Chain String) :
    Yields folding (replayChain (names.map pure)) names := by
  have h : Yields folding (replayChain (names.map pure)) (names.map id) :=
    Yields.chain fun name _ => Yields.value name
  have hid : names.map id = names := Chain.map_eq_self fun name _ => rfl
  rwa [hid] at h

end Pieces

/-! ## Whole trees -/

/-- The operands are built from left to right, and then the node. -/
def Expression.replaying : Expression.Interpretation (Building Expression) where
  literal line value := atLine line fun s => s.literal value
  identifier line name := atLine line fun s => s.identifier name
  assign line target operand := do
    let operand ← operand
    atLine line fun s => s.assign target operand
  binary line op left right := do
    let left ← left
    let right ← right
    atLine line fun s => s.binary op left right
  minus line operand := do
    let operand ← operand
    atLine line fun s => s.minus operand
  call line name arguments := do
    let arguments ← replayOptional (arguments.map replayChain)
    atLine line fun s => s.call name arguments

/-- Builds an expression once more. -/
def Expression.replay : Expression → Building Expression :=
  Expression.interpret Expression.replaying

/-- The parts are built in the order of the source, and then the statement.  An empty block has no
list of statements. -/
def Statement.replaying :
    Statement.Interpretation (Building Statement) (Building Elsif) (Building Block) where
  expression line e := do
    let e ← e.replay
    atLine line fun s => s.expressionStatement e
  global line names := do
    let names ← replayChain (names.map pure)
    atLine line fun s => s.globalStatement names
  ifElse line condition thenBlock elsifs elseBlock := do
    let condition ← condition.replay
    let thenBlock ← thenBlock
    let elsifs ← replayOptional (elsifs.map replayChain)
    let elseBlock ← replayOptional elseBlock
    atLine line fun s => s.ifElse condition thenBlock elsifs elseBlock
  whileLoop line condition block := do
    let condition ← condition.replay
    let block ← block
    atLine line fun s => s.whileLoop condition block
  forLoop line init condition post block := do
    let init ← replayOptional (init.map Expression.replay)
    let condition ← replayOptional (condition.map Expression.replay)
    let post ← replayOptional (post.map Expression.replay)
    let block ← block
    atLine line fun s => s.forLoop init condition post block
  returnWith line value := do
    let value ← replayOptional (value.map Expression.replay)
    atLine line fun s => s.returnWith value
  breakLoop line := atLine line fun s => s.breakLoop
  continueLoop line := atLine line fun s => s.continueLoop
  elsif condition block := do
    let condition ← condition.replay
    return ⟨condition, ← block⟩
  block
    | [] => return Block.ofChain none
    | first :: rest => do
      let statements ← replayStatements ⟨first, rest⟩
      return Block.ofChain (some statements)

def Statement.replay : Statement → Building Statement :=
  Statement.interpret Statement.replaying

def Elsif.replay : Elsif → Building Elsif :=
  Elsif.interpret Statement.replaying

def Block.replay : Block → Building Block :=
  Block.interpret Statement.replaying

/-- Builds a product of any sort once more. -/
def Product.replay : Product → Building Product
  | .expression e => return .expression (← e.replay)
  | .statement s => return .statement (← s.replay)
  | .elsif c => return .elsif (← c.replay)
  | .block b => return .block (← b.replay)
  | .names list => return .names (← replayChain (list.map pure))
  | .arguments list => return .arguments (← replayChain (list.map Expression.replay))
  | .statements list => return .statements (← replayStatements (list.map Statement.replay))
  | .elsifs list => return .elsifs (← replayChain (list.map Elsif.replay))

/-! ## What a replay gives -/

/-- Everything built without folding corresponds to what is built at the same line on a session that
folds, or on one that does not. -/
def Translation.Reaches (T : Translation) (folding : Bool) : Prop :=
  ∀ s : Session, s.options.constantFolding = folding →
    T.Commutes (.start ⟨false, s.line⟩) s

section Replay

variable {T : Translation} {folding : Bool} (h : T.Reaches folding)

include h

/-- A node is built at its line out of the parts that were built before. -/
theorem Yields.node {α : Type} {line : Line} {build : Session → α} {a : α}
    (hbuild : ∀ s : Session, T.Commutes (.start ⟨false, line⟩) s → build s = a) :
    Yields folding (atLine line build) a := by
  refine yields_atLine ?_
  rintro s hs rfl
  exact hbuild s (h s hs)

/-- Replaying an expression translates it. -/
theorem Expression.yields_replay (e : Expression) :
    Yields folding e.replay (T.expression e) := by
  induction e with
  | literal line value =>
      exact Yields.node h fun s hs => hs.literal value
  | identifier line name =>
      exact Yields.node h fun s hs => hs.identifier name
  | assign line target operand ih =>
      refine ih.bind ?_
      exact Yields.node h fun s hs => hs.assign target operand
  | binary line op left right ihleft ihright =>
      refine ihleft.bind (ihright.bind ?_)
      exact Yields.node h fun s hs => hs.binary op left right
  | minus line operand ih =>
      refine ih.bind ?_
      exact Yields.node h fun s hs => hs.minus operand
  | call line name arguments ih =>
      have harguments : Yields folding
          (replayOptional ((arguments.map (Chain.map replay)).map replayChain))
          (arguments.map (Chain.map T.expression)) := by
        rw [Option.map_map]
        exact Yields.optional fun chain hchain => Yields.chain (ih chain hchain)
      rw [replay, interpret_call]
      refine harguments.bind ?_
      exact Yields.node h fun s hs => hs.call name arguments

theorem Expression.yields_replayOptional (part : Option Expression) :
    Yields folding (replayOptional (part.map replay)) (part.map T.expression) :=
  Yields.optional fun e _ => yields_replay h e

/-- Replaying a statement, a clause or a block translates it. -/
theorem Statement.yields_replay :
    (∀ s : Statement, Yields folding s.replay (T.statement s)) ∧
    (∀ c : Elsif, Yields folding c.replay (T.elsif c)) ∧
    ∀ b : Block, Yields folding b.replay (T.block b) := by
  -- Clauses and blocks have no line, so any session will do for them.
  have hany := h (.start ⟨folding, 0⟩) rfl
  apply Statement.induction
  case expression =>
    intro line e
    refine (e.yields_replay h).bind ?_
    exact Yields.node h fun s hs => hs.expressionStatement e
  case global =>
    intro line names
    refine (Yields.names names).bind ?_
    exact Yields.node h fun s hs => hs.globalStatement names
  case ifElse =>
    intro line condition thenBlock elsifs elseBlock hthen helsifs helse
    have hclauses : Yields folding
        (replayOptional ((elsifs.map (Chain.map Elsif.replay)).map replayChain))
        (elsifs.map (Chain.map T.elsif)) := by
      rw [Option.map_map]
      exact Yields.optional fun chain hchain => Yields.chain (helsifs chain hchain)
    have hlast : Yields folding (replayOptional (elseBlock.map Block.replay))
        (elseBlock.map T.block) := Yields.optional helse
    rw [replay, interpret_ifElse]
    refine (condition.yields_replay h).bind (hthen.bind (hclauses.bind (hlast.bind ?_)))
    exact Yields.node h fun s hs => hs.ifElse condition thenBlock elsifs elseBlock
  case whileLoop =>
    intro line condition block hblock
    refine (condition.yields_replay h).bind (hblock.bind ?_)
    exact Yields.node h fun s hs => hs.whileLoop condition block
  case forLoop =>
    intro line init condition post block hblock
    have hinit := Expression.yields_replayOptional h init
    have hcondition := Expression.yields_replayOptional h condition
    have hpost := Expression.yields_replayOptional h post
    refine hinit.bind (hcondition.bind (hpost.bind (hblock.bind ?_)))
    exact Yields.node h fun s hs => hs.forLoop init condition post block
  case returnWith =>
    intro line value
    refine (Expression.yields_replayOptional h value).bind ?_
    exact Yields.node h fun s hs => hs.returnWith value
  case breakLoop =>
    intro line
    exact Yields.node h fun s hs => hs.breakLoop
  case continueLoop =>
    intro line
    exact Yields.node h fun s hs => hs.continueLoop
  case elsif =>
    intro condition block hblock
    rw [← hany.elsif]
    exact (condition.yields_replay h).bind (hblock.bind (Yields.value _))
  case block =>
    intro statements hstatements
    rw [Block.replay, Block.interpret_mk, ← hany.block]
    cases statements with
    | nil => exact Yields.value _
    | cons first rest =>
        have hlist : Yields folding (replayStatements ⟨first.replay, rest.map replay⟩)
            ⟨T.statement first, rest.map T.statement⟩ :=
          Yields.statements (c := ⟨first, rest⟩) hstatements
        exact hlist.bind (Yields.value _)

theorem Product.yields_replay (p : Product) : Yields folding p.replay (T.product p) := by
  obtain ⟨hstatement, helsif, hblock⟩ := Statement.yields_replay h
  cases p with
  | expression e => exact (e.yields_replay h).bind (Yields.value _)
  | statement s => exact (hstatement s).bind (Yields.value _)
  | elsif c => exact (helsif c).bind (Yields.value _)
  | block b => exact (hblock b).bind (Yields.value _)
  | names list => exact (Yields.names list).bind (Yields.value _)
  | arguments list =>
      have hlist := Yields.chain (c := list) fun e _ => e.yields_replay h
      exact hlist.bind (Yields.value _)
  | statements list =>
      have hlist := Yields.statements (c := list) fun s _ => hstatement s
      exact hlist.bind (Yields.value _)
  | elsifs list =>
      have hlist := Yields.chain (c := list) fun c _ => helsif c
      exact hlist.bind (Yields.value _)

end Replay

end ScriptTree
