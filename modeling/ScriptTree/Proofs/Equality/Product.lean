import ScriptTree.Proofs.Equality.Statement
import ScriptTree.Proofs.Lines.Stamp

/-!
# Equality of products

Trees of all sorts and the lists of them are equal if they are the same but for the doubles in them
and if these stand for the same numbers.  So equality is symmetric and transitive, a tree equals
itself unless there is a NaN in it, and trees that differ in one line or in the length of one list
are different, however deep the difference is.
-/

namespace ScriptTree

/-! ## Products -/

namespace Product

/-- A product without its doubles. -/
def blank : Product → Product :=
  (Translation.ofExpressions Expression.blank).product

/-- The doubles of a product from left to right. -/
def doubles (p : Product) : List Float :=
  p.expressions.flatMap Expression.doubles

theorem ctorIdx_of_beq {p q : Product} (h : (p == q) = true) : p.ctorIdx = q.ctorIdx := by
  cases p <;> cases q <;> first | rfl | cases h

theorem ctorIdx_of_blank_eq {p q : Product} (h : p.blank = q.blank) : p.ctorIdx = q.ctorIdx := by
  have hblank : ∀ p : Product, p.blank.ctorIdx = p.ctorIdx := fun p => by cases p <;> rfl
  rw [← hblank, h, hblank]

theorem comparesBy (p : Product) : ComparesBy blank doubles p := by
  obtain ⟨hstatement, helsif, hblock⟩ := Statement.comparesBy
  cases p with
  | expression e =>
      rintro (e' | _)
      case expression =>
        change (e == e') = true ↔ Product.expression e.blank = .expression e'.blank ∧
          List.Forall₂ _ (e.doubles ++ []) (e'.doubles ++ [])
        rw [e.comparesBy, List.append_nil, List.append_nil, expression.injEq]
      all_goals exact ComparesBy.iff_of_kind_ne ctorIdx_of_beq ctorIdx_of_blank_eq rfl
  | statement s =>
      rintro (_ | s' | _)
      case statement =>
        have hs := hstatement s s'
        rw [← statement.injEq] at hs
        exact hs
      all_goals exact ComparesBy.iff_of_kind_ne ctorIdx_of_beq ctorIdx_of_blank_eq rfl
  | elsif c =>
      rintro (_ | _ | c' | _)
      case elsif =>
        have hc := helsif c c'
        rw [← elsif.injEq] at hc
        exact hc
      all_goals exact ComparesBy.iff_of_kind_ne ctorIdx_of_beq ctorIdx_of_blank_eq rfl
  | block b =>
      rintro (_ | _ | _ | b' | _)
      case block =>
        have hb := hblock b b'
        rw [← block.injEq] at hb
        exact hb
      all_goals exact ComparesBy.iff_of_kind_ne ctorIdx_of_beq ctorIdx_of_blank_eq rfl
  | names list =>
      rintro (_ | _ | _ | _ | list' | _)
      case names =>
        change (list == list') = true ↔ Product.names list = .names list' ∧ List.Forall₂ _ [] []
        rw [beq_iff_eq, names.injEq]
        exact (and_iff_left List.Forall₂.nil).symm
      all_goals exact ComparesBy.iff_of_kind_ne ctorIdx_of_beq ctorIdx_of_blank_eq rfl
  | arguments list =>
      rintro (_ | _ | _ | _ | _ | list' | _)
      case arguments =>
        have hlist := ComparesBy.chain Expression.length_doubles_eq
          (fun e (_ : e ∈ list.toList) => e.comparesBy) list'
        rw [← arguments.injEq] at hlist
        exact hlist
      all_goals exact ComparesBy.iff_of_kind_ne ctorIdx_of_beq ctorIdx_of_blank_eq rfl
  | statements list =>
      rintro (_ | _ | _ | _ | _ | _ | list' | _)
      case statements =>
        have hlist := ComparesBy.chain Statement.length_doubles_eq
          (fun s (_ : s ∈ list.toList) => hstatement s) list'
        rw [← statements.injEq] at hlist
        rw [doubles, doubles, expressions, expressions, List.flatMap_assoc, List.flatMap_assoc]
        exact hlist
      all_goals exact ComparesBy.iff_of_kind_ne ctorIdx_of_beq ctorIdx_of_blank_eq rfl
  | elsifs list =>
      rintro (_ | _ | _ | _ | _ | _ | _ | list')
      case elsifs =>
        have hlist := ComparesBy.chain Elsif.length_doubles_eq
          (fun c (_ : c ∈ list.toList) => helsif c) list'
        rw [← elsifs.injEq] at hlist
        rw [doubles, doubles, expressions, expressions, List.flatMap_assoc, List.flatMap_assoc]
        exact hlist
      all_goals exact ComparesBy.iff_of_kind_ne ctorIdx_of_beq ctorIdx_of_blank_eq rfl

/-! ### Nodes of a product -/

/-- What stands at a path, which says at each node to which part it goes on. -/
def at? : List Nat → Product → Option Product
  | [], p => some p
  | i :: path, p => p.parts[i]?.bind (at? path)

/-- How many elements a list has; blocks are lists too. -/
def length? : Product → Option Nat
  | .names list => some list.length
  | .arguments list => some list.length
  | .statements list => some list.length
  | .elsifs list => some list.length
  | .block b => some b.statements.length
  | _ => none

theorem line?_blank (p : Product) : p.blank.line? = p.line? := by
  rcases p with (_ | _ | _ | _ | _ | ⟨line, name, list⟩) | s | _
  case expression.call =>
    change line? (.expression (.blank _)) = _
    rw [Expression.blank_call]
    rfl
  case statement => cases s <;> rfl
  all_goals rfl

theorem length?_blank (p : Product) : p.blank.length? = p.length? := by
  rcases p with _ | _ | _ | ⟨⟨statements⟩⟩ | _ | list | list | list
  case block =>
    change length? (.block (Block.mapExpressions _ _)) = _
    rw [Block.mapExpressions_mk]
    exact congrArg some (List.length_map _)
  case arguments | statements | elsifs => exact congrArg some (Chain.length_map _ list)
  all_goals rfl

theorem parts_blank (p : Product) : p.blank.parts = p.parts.map blank := by
  rcases p with (_ | _ | _ | _ | _ | ⟨line, name, list⟩) | s | ⟨condition, block⟩ |
    ⟨⟨statements⟩⟩ | _ | list | list | list
  case expression.call =>
    change parts (.expression (.blank _)) = _
    rw [Expression.blank_call]
    cases list <;> rfl
  case statement =>
    cases s with
    | ifElse line condition thenBlock elsifs elseBlock =>
        change parts (.statement (Statement.mapExpressions _ _)) = _
        rw [Statement.mapExpressions_ifElse]
        cases elsifs <;> cases elseBlock <;> rfl
    | forLoop line init condition post block =>
        cases init <;> cases condition <;> cases post <;> rfl
    | returnWith line value => cases value <;> rfl
    | _ => rfl
  case block =>
    change parts (.block (Block.mapExpressions _ _)) = _
    rw [Block.mapExpressions_mk]
    simp only [parts, List.map_map]
    rfl
  case arguments | statements | elsifs =>
    change (list.toList.map _).map _ = (list.toList.map _).map _
    rw [List.map_map, List.map_map]
    rfl
  all_goals rfl

/-- Trees of the same shape have the same shape from every path on. -/
theorem at?_blank (path : List Nat) (p : Product) :
    p.blank.at? path = (p.at? path).map blank := by
  induction path generalizing p with
  | nil => rfl
  | cons i path ih =>
      rw [at?, at?, parts_blank, List.getElem?_map]
      cases p.parts[i]? with
      | none => rfl
      | some q => exact ih q

theorem doubles_expression (e : Expression) : (Product.expression e).doubles = e.doubles :=
  List.flatMap_singleton Expression.doubles e

theorem flatMap_doubles_optional (e : Option Expression) :
    (e.toList.map Product.expression).flatMap doubles = e.toList.flatMap Expression.doubles := by
  rw [List.flatMap_map, funext doubles_expression]

/-- The doubles of a statement are those of its parts. -/
theorem doubles_statement (s : Statement) :
    (Product.statement s).doubles = (Product.statement s).parts.flatMap doubles := by
  cases s with
  | expression line e => exact (List.append_nil _).symm
  | ifElse line condition thenBlock elsifs elseBlock =>
      have hclauses : (elsifs.toList.map Product.elsifs).flatMap doubles =
          Elsif.doublesChain? elsifs := by
        cases elsifs with
        | none => rfl
        | some chain => exact (List.append_nil _).trans List.flatMap_assoc
      have hlast : (elseBlock.toList.map Product.block).flatMap doubles =
          (elseBlock.map Block.doubles).getD [] := by
        cases elseBlock with
        | none => rfl
        | some block => exact List.append_nil _
      change Statement.doubles _ =
        ([_, .block thenBlock] ++ _ ++ _ : List Product).flatMap doubles
      rw [Statement.doubles_ifElse, List.flatMap_append, List.flatMap_append, hclauses, hlast,
        List.flatMap_cons, List.flatMap_singleton, doubles_expression, List.append_assoc,
        List.append_assoc]
      rfl
  | whileLoop line condition block =>
      change condition.doubles ++ block.doubles =
        (Product.expression condition).doubles ++ (block.doubles ++ [])
      rw [doubles_expression, List.append_nil]
  | forLoop line init condition post block =>
      change Statement.doubles _ = (List.map _ _ ++ [Product.block block]).flatMap doubles
      rw [Statement.doubles_forLoop, List.map_append, List.map_append, List.flatMap_append,
        List.flatMap_append, List.flatMap_append, flatMap_doubles_optional,
        flatMap_doubles_optional, flatMap_doubles_optional, List.append_assoc, List.append_assoc,
        List.flatMap_singleton]
      rfl
  | returnWith line value => exact (flatMap_doubles_optional value).symm
  | _ => rfl

/-- The doubles of a product are those of its parts, unless it is a double itself. -/
theorem doubles_eq_flatMap_parts (p : Product) :
    (∃ line x, p = .expression (.literal line (.double x)) ∧ p.doubles = [x]) ∨
      p.doubles = p.parts.flatMap doubles := by
  rcases p with e | s | ⟨condition, block⟩ | ⟨⟨statements⟩⟩ | _ | list | list | list
  case expression =>
    rcases e with ⟨line, _ | x | _ | _⟩ | _ | _ | _ | _ | ⟨line, name, _ | list⟩
    case literal.double => exact Or.inl ⟨line, x, rfl, rfl⟩
    all_goals right
    case binary line op left right =>
      change _ = (Product.expression left).doubles ++ ((Product.expression right).doubles ++ [])
      rw [doubles_expression, doubles_expression, doubles_expression, List.append_nil]
      rfl
    case call.some =>
      rw [doubles_expression, Expression.doubles_call]
      exact (List.append_nil _).symm
    all_goals first | rfl | exact (List.append_nil _).symm
  all_goals right
  case statement => exact doubles_statement s
  case elsif =>
    change condition.doubles ++ block.doubles =
      (Product.expression condition).doubles ++ (block.doubles ++ [])
    rw [doubles_expression, List.append_nil]
  case block =>
    change Block.doubles _ = (statements.map Product.statement).flatMap doubles
    rw [Block.doubles, Block.expressions_mk, List.flatMap_assoc, List.flatMap_map]
    rfl
  case names => rfl
  case arguments =>
    change list.toList.flatMap _ = (list.toList.map Product.expression).flatMap doubles
    rw [List.flatMap_map, funext doubles_expression]
  case statements =>
    change (list.toList.flatMap _).flatMap _ = (list.toList.map Product.statement).flatMap doubles
    rw [List.flatMap_assoc, List.flatMap_map]
    rfl
  case elsifs =>
    change (list.toList.flatMap _).flatMap _ = (list.toList.map Product.elsif).flatMap doubles
    rw [List.flatMap_assoc, List.flatMap_map]
    rfl

/-- A part is smaller than the whole. -/
theorem sizeOf_lt_of_mem_parts {p q : Product} (h : q ∈ p.parts) : sizeOf q < sizeOf p := by
  rcases p with e | s | ⟨condition, block⟩ | ⟨⟨statements⟩⟩ | _ | list | list | list
  case expression =>
    rcases e with _ | _ | _ | _ | _ | ⟨line, name, _ | list⟩ <;> grind [parts]
  case statement => cases s <;> grind [parts]
  case elsif => grind [parts]
  case block =>
    obtain ⟨s, hs, rfl⟩ := List.mem_map.mp h
    have := List.sizeOf_lt_of_mem hs
    grind
  case names => cases h
  case arguments | statements | elsifs =>
    obtain ⟨a, ha, rfl⟩ := List.mem_map.mp h
    have := Chain.sizeOf_lt_of_mem ha
    grind

/-- Induction on products from their parts on. -/
theorem induction {motive : Product → Prop} (h : ∀ p, (∀ q ∈ p.parts, motive q) → motive p)
    (p : Product) : motive p := by
  induction p using (measure (fun p : Product => sizeOf p)).wf.induction with
  | h p ih => exact h p fun q hq => ih q (sizeOf_lt_of_mem_parts hq)

theorem doubles_subset_of_within {p q : Product} (h : q.Within p) : q.doubles ⊆ p.doubles := by
  induction h with
  | self => exact List.Subset.refl _
  | @part r p _ hr ih =>
      obtain ⟨line, x, rfl, -⟩ | hp := p.doubles_eq_flatMap_parts
      · cases hr
      · rw [hp]
        exact fun x hx => List.mem_flatMap.mpr ⟨r, hr, ih hx⟩

/-- The doubles of a product are the double literals that stand in it at some depth. -/
theorem mem_doubles_iff {x : Float} {p : Product} :
    x ∈ p.doubles ↔ ∃ line, Within (.expression (.literal line (.double x))) p := by
  constructor
  · intro hx
    induction p using Product.induction with
    | h p ih =>
        obtain ⟨line, y, rfl, hown⟩ | hp := p.doubles_eq_flatMap_parts
        · rw [hown, List.mem_singleton] at hx
          exact ⟨line, hx ▸ .self _⟩
        · rw [hp] at hx
          obtain ⟨q, hq, hx⟩ := List.mem_flatMap.mp hx
          obtain ⟨line, hline⟩ := ih q hq hx
          exact ⟨line, .part hline hq⟩
  · rintro ⟨line, hline⟩
    exact doubles_subset_of_within hline List.mem_cons_self

/-! ### Equality -/

/-- The line of a node or the length of a list. -/
def outline (p : Product) : Option Line × Option Nat :=
  (p.line?, p.length?)

/-- Two products are the same but for the doubles in them, and these stand for the same numbers. -/
structure Agrees (p q : Product) : Prop where
  shape : p.blank = q.blank
  doubles : List.Forall₂ Double.SameNumber p.doubles q.doubles

theorem beq_iff_agrees (p q : Product) : (p == q) = true ↔ p.Agrees q :=
  (p.comparesBy q).trans ⟨fun h => ⟨h.1, h.2⟩, fun h => ⟨h.1, h.2⟩⟩

theorem Agrees.symm {p q : Product} (h : p.Agrees q) : q.Agrees p :=
  ⟨h.shape.symm, .flip (h.doubles.imp fun _ _ => Double.SameNumber.symm)⟩

theorem Agrees.trans {p q r : Product} (h : p.Agrees q) (h' : q.Agrees r) : p.Agrees r := by
  have htrans : ∀ {as bs cs}, List.Forall₂ Double.SameNumber as bs →
      List.Forall₂ Double.SameNumber bs cs → List.Forall₂ Double.SameNumber as cs := by
    intro as bs cs hab hbc
    induction hab generalizing cs with
    | nil => exact hbc
    | cons hab _ ih =>
        cases hbc with
        | cons hbc hrest => exact .cons (hab.trans hbc) (ih hrest)
  exact ⟨h.shape.trans h'.shape, htrans h.doubles h'.doubles⟩

/-- A NaN is the only number that a tree can hold against itself. -/
theorem agrees_self_iff (p : Product) :
    p.Agrees p ↔ ∀ line x, Within (.expression (.literal line (.double x))) p →
      x.isNaN = false := by
  have hself : p.Agrees p ↔ ∀ x ∈ p.doubles, x.isNaN = false := by
    refine Iff.trans ⟨Agrees.doubles, fun h => ⟨rfl, h⟩⟩ (List.forall₂_same.trans ?_)
    exact forall₂_congr fun x _ => Double.sameNumber_self_iff
  rw [hself]
  constructor
  · exact fun h line x hx => h x (mem_doubles_iff.mpr ⟨line, hx⟩)
  · intro h x hx
    obtain ⟨line, hline⟩ := mem_doubles_iff.mp hx
    exact h line x hline

/-- Trees that agree have the same lines and the same lengths everywhere. -/
theorem Agrees.outline_at? {p q : Product} (h : p.Agrees q) (path : List Nat) :
    (p.at? path).map outline = (q.at? path).map outline := by
  have hblank : ∀ p : Product, (p.at? path).map outline = (p.blank.at? path).map outline := by
    intro p
    rw [at?_blank, Option.map_map]
    refine congrArg (Option.map · (p.at? path)) (funext fun a => ?_)
    rw [Function.comp_apply, outline, outline, line?_blank, length?_blank]
  rw [hblank, h.shape, ← hblank]

/-- Equality of trees is the identity of everything in them but the doubles, which only have to
stand for the same numbers.  It is symmetric and transitive, a tree equals itself exactly if no NaN
stands in it, and trees with different lines or lengths at the same place are different. -/
theorem equality_of_trees (p q r : Product) :
    ((p == q) = true ↔ p.Agrees q) ∧
    (p == q) = (q == p) ∧
    ((p == q) = true → (q == r) = true → (p == r) = true) ∧
    ((p == p) = true ↔
      ∀ line x, Within (.expression (.literal line (.double x))) p → x.isNaN = false) ∧
    ∀ path, (p.at? path).map outline ≠ (q.at? path).map outline → (p == q) = false := by
  refine ⟨p.beq_iff_agrees q, ?symmetric, ?transitive, ?reflexive, ?different⟩
  case symmetric =>
    rw [Bool.eq_iff_iff, beq_iff_agrees, beq_iff_agrees]
    exact ⟨Agrees.symm, Agrees.symm⟩
  case transitive =>
    rw [beq_iff_agrees, beq_iff_agrees, beq_iff_agrees]
    exact Agrees.trans
  case reflexive => rw [beq_iff_agrees, agrees_self_iff]
  case different =>
    intro path hpath
    rw [Bool.eq_false_iff, ne_eq, beq_iff_agrees]
    exact fun h => hpath (h.outline_at? path)

/-- The two zeros make equal trees, a NaN makes a tree that differs from itself, and a line deep in
a tree makes it another one. -/
theorem equality_of_trees_zeros :
    let tree (line : Line) (x : Float) : Product :=
      .expression (.minus 0 (.call 1 "f" (some ⟨.literal line (.double x), []⟩)))
    (tree 2 0.0 == tree 2 (-0.0)) = true ∧
    (tree 2 0.0 == tree 2 0.0) = true ∧
    (tree 2 Double.notANumber == tree 2 Double.notANumber) = false ∧
    (tree 2 0.0 == tree 3 0.0) = false := by
  intro tree
  obtain ⟨hagree, hsymmetric, htransitive, -, -⟩ :=
    equality_of_trees (tree 2 0.0) (tree 2 (-0.0)) (tree 2 0.0)
  obtain ⟨-, -, -, hnan, -⟩ :=
    equality_of_trees (tree 2 Double.notANumber) (tree 2 0.0) (tree 2 0.0)
  obtain ⟨-, -, -, -, hlines⟩ := equality_of_trees (tree 2 0.0) (tree 3 0.0) (tree 2 0.0)
  have hzeros : (tree 2 0.0 == tree 2 (-0.0)) = true :=
    hagree.mpr ⟨rfl, .cons ⟨rfl, Or.inr ⟨rfl, rfl⟩⟩ .nil⟩
  refine ⟨hzeros, htransitive hzeros (hsymmetric ▸ hzeros), ?_, hlines [0, 0, 0] (by decide)⟩
  rw [Bool.eq_false_iff, ne_eq, hnan]
  intro h
  have hwithin : Within (.expression (.literal 2 (.double Double.notANumber)))
      (tree 2 Double.notANumber) :=
    .part (.part (.part (.self _) List.mem_cons_self) List.mem_cons_self) List.mem_cons_self
  cases h 2 Double.notANumber hwithin

end Product

end ScriptTree
