import Mathlib.Data.List.Forall2
import ScriptTree.Proofs.Double.Equality
import ScriptTree.Proofs.Syntax.Expression

/-!
# Equality of expressions

Equality of trees is structural, but it reaches the doubles in them, which are compared as numbers.
So a tree is taken apart into its shape, which is the tree with one and the same double in the place
of each, and the list of its doubles from left to right.  Two trees are equal if their shapes are
identical and their doubles stand for the same numbers one by one.

The property is first proved of lists, chains and parts that may be left out, given the property of
their elements.  How many doubles there are can be seen from the shape, so a list of doubles falls
apart into the doubles of the parts.
-/

namespace ScriptTree

theorem Chain.sizeOf_lt_of_mem {α : Type} [SizeOf α] {a : α} {c : Chain α} (h : a ∈ c.toList) :
    sizeOf a < sizeOf c :=
  List.sizeOf_lt_of_mem h

/-! ## Comparing lists part by part -/

/-- Chains of things that are equal only to themselves are equal only to themselves. -/
instance Chain.instLawfulBEq {α : Type} [BEq α] [LawfulBEq α] : LawfulBEq (Chain α) where
  rfl := by
    intro c
    change (c.head == c.head && c.tail == c.tail) = true
    rw [beq_self_eq_true, beq_self_eq_true, Bool.and_self]
  eq_of_beq := by
    rintro ⟨first, rest⟩ ⟨first', rest'⟩ h
    change (first == first' && rest == rest') = true at h
    rw [Bool.and_eq_true, beq_iff_eq, beq_iff_eq] at h
    rw [h.1, h.2]

section Lists

variable {α σ : Type} {R : Float → Float → Prop}

/-- A list of numbers is compared part by part if its first part has the length of the other
one's, and that can follow from what is compared along with it. -/
theorem and_forall₂_append_iff {P Q : Prop} {as bs cs ds : List Float}
    (h : P → as.length = bs.length) :
    (P ∧ Q) ∧ List.Forall₂ R (as ++ cs) (bs ++ ds) ↔
      (P ∧ List.Forall₂ R as bs) ∧ Q ∧ List.Forall₂ R cs ds := by
  constructor
  · rintro ⟨⟨hp, hq⟩, hrel⟩
    have hfirst := List.forall₂_take as.length hrel
    have hlast := List.forall₂_drop as.length hrel
    have hlength := h hp
    rw [List.take_left, hlength, List.take_left] at hfirst
    rw [List.drop_left, hlength, List.drop_left] at hlast
    exact ⟨⟨hp, hfirst⟩, hq, hlast⟩
  · rintro ⟨⟨hp, hfirst⟩, hq, hlast⟩
    exact ⟨⟨hp, hq⟩, List.rel_append hfirst hlast⟩

/-- Lists of parts with the same shapes have as many doubles in them. -/
theorem length_flatMap_eq {shape : α → σ} {doubles : α → List Float}
    (hlength : ∀ a b, shape a = shape b → (doubles a).length = (doubles b).length)
    {as bs : List α} (h : as.map shape = bs.map shape) :
    (as.flatMap doubles).length = (bs.flatMap doubles).length := by
  induction as generalizing bs with
  | nil => cases bs with
    | nil => rfl
    | cons => cases h
  | cons a as ih =>
      cases bs with
      | nil => cases h
      | cons b bs =>
          obtain ⟨hfirst, hrest⟩ := List.cons.inj h
          rw [List.flatMap_cons, List.flatMap_cons, List.length_append, List.length_append,
            hlength a b hfirst, ih hrest]

/-- What is equal to a tree is what has the same shape and doubles for the same numbers. -/
def ComparesBy [BEq α] (shape : α → σ) (doubles : α → List Float) (a : α) : Prop :=
  ∀ b, (a == b) = true ↔
    shape a = shape b ∧ List.Forall₂ Double.SameNumber (doubles a) (doubles b)

namespace ComparesBy

variable [BEq α] {shape : α → σ} {doubles : α → List Float}

/-- Nodes of two kinds compare as they should if their kinds can be seen from either side. -/
theorem iff_of_kind_ne {kind : α → Nat} (hbeq : ∀ {a b : α}, (a == b) = true → kind a = kind b)
    (hshape : ∀ {a b : α}, shape a = shape b → kind a = kind b) {a b : α}
    (h : Nat.beq (kind a) (kind b) = false) :
    (a == b) = true ↔ shape a = shape b ∧ List.Forall₂ Double.SameNumber (doubles a) (doubles b) :=
  have hne : kind a ≠ kind b := Nat.ne_of_beq_eq_false h
  iff_of_false (mt hbeq hne) fun hsame => hne (hshape hsame.1)

/-- Lists are compared element by element. -/
theorem list (hlength : ∀ a b, shape a = shape b → (doubles a).length = (doubles b).length)
    {as : List α} (h : ∀ a ∈ as, ComparesBy shape doubles a) :
    ComparesBy (List.map shape) (List.flatMap doubles) as := by
  intro bs
  induction as generalizing bs with
  | nil => cases bs <;> simp
  | cons a as ih =>
      cases bs with
      | nil => simp
      | cons b bs =>
          obtain ⟨hfirst, hrest⟩ := List.forall_mem_cons.mp h
          change (a == b && as == bs) = true ↔ _
          rw [Bool.and_eq_true, hfirst, ih hrest, ← and_forall₂_append_iff (hlength a b),
            List.map_cons, List.map_cons, List.cons.injEq, List.flatMap_cons, List.flatMap_cons]

theorem chain (hlength : ∀ a b, shape a = shape b → (doubles a).length = (doubles b).length)
    {c : Chain α} (h : ∀ a ∈ c.toList, ComparesBy shape doubles a) :
    ComparesBy (Chain.map shape) (fun c => c.toList.flatMap doubles) c := by
  rintro ⟨b, bs⟩
  obtain ⟨a, as⟩ := c
  have hlist := list hlength h (b :: bs)
  change _ ↔ shape a :: as.map shape = shape b :: bs.map shape ∧ _ at hlist
  rw [List.cons.injEq] at hlist
  change _ ↔ Chain.mk (shape a) (as.map shape) = Chain.mk (shape b) (bs.map shape) ∧ _
  rw [Chain.mk.injEq]
  exact hlist

theorem option {o : Option α} (h : ∀ a ∈ o, ComparesBy shape doubles a) :
    ComparesBy (Option.map shape) (fun o => (o.map doubles).getD []) o := by
  rintro (_ | b)
  · cases o <;> simp
  · cases o with
    | none => simp
    | some a =>
        change (a == b) = true ↔ some (shape a) = some (shape b) ∧ _
        rw [h a rfl, Option.some.injEq]
        rfl

end ComparesBy

end Lists

/-! ## Expressions -/

/-- A value without its number, if it is a double. -/
def Value.blank : Value → Value
  | .double _ => .double Double.notANumber
  | value => value

/-- The double of a value. -/
def Value.doubles : Value → List Float
  | .double x => [x]
  | _ => []

theorem Value.comparesBy (a : Value) : ComparesBy blank doubles a := by
  intro b
  cases a <;> cases b <;>
    simp only [blank, doubles, integer.injEq, boolean.injEq, reduceCtorEq, false_and, true_and,
      and_true, List.forall₂_cons, List.Forall₂.nil]
  case integer.integer m n => exact @beq_iff_eq _ _ _ m n
  case double.double x y => exact Double.beq_iff_sameNumber x y
  case boolean.boolean a b => exact @beq_iff_eq _ _ _ a b
  case null.null => exact iff_of_true rfl trivial
  all_goals exact iff_of_false Bool.false_ne_true id

namespace Expression

/-- How the tree without its doubles comes from its parts. -/
def blanking : Interpretation Expression where
  literal line value := .literal line value.blank
  identifier := .identifier
  assign := .assign
  binary := .binary
  minus := .minus
  call := .call

/-- The tree without its doubles: in the place of each stands the same one. -/
def blank : Expression → Expression :=
  interpret blanking

/-- How the doubles of a tree come from those of its parts. -/
def listing : Interpretation (List Float) where
  literal _ value := value.doubles
  identifier _ _ := []
  assign _ _ operand := operand
  binary _ _ left right := left ++ right
  minus _ operand := operand
  call _ _ arguments := (arguments.map fun chain => chain.toList.flatten).getD []

/-- The doubles of a tree from left to right. -/
def doubles : Expression → List Float :=
  interpret listing

theorem blank_call (line : Line) (name : String) (arguments : Option (Chain Expression)) :
    (call line name arguments).blank = .call line name (arguments.map (Chain.map blank)) :=
  interpret_call blanking line name arguments

theorem doubles_call (line : Line) (name : String) (arguments : Option (Chain Expression)) :
    (call line name arguments).doubles =
      (arguments.map fun chain => chain.toList.flatMap doubles).getD [] := by
  rw [doubles, interpret_call]
  cases arguments <;> rfl

theorem beqList_eq_beq (as bs : List Expression) : beqList as bs = (as == bs) := by
  induction as generalizing bs with
  | nil => cases bs <;> rfl
  | cons a as ih =>
      cases bs with
      | nil => rfl
      | cons b bs => exact congrArg ((a == b) && ·) (ih bs)

/-- The arguments of two calls are compared like any optional chains. -/
theorem beq_call (line line' : Line) (name name' : String)
    (arguments arguments' : Option (Chain Expression)) :
    (call line name arguments == call line' name' arguments') =
      (line == line' && name == name' && arguments == arguments') := by
  change beq _ _ = _
  cases arguments with
  | none => cases arguments' <;> simp [beq]
  | some chain =>
      obtain ⟨a, as⟩ := chain
      cases arguments' with
      | none => simp [beq]
      | some chain =>
          obtain ⟨b, bs⟩ := chain
          rw [beq, beqList_eq_beq, Bool.and_assoc]
          rfl

/-- The number of doubles can be seen from the shape. -/
theorem length_doubles_blank (e : Expression) : e.blank.doubles.length = e.doubles.length := by
  induction e with
  | literal line value => cases value <;> rfl
  | identifier => rfl
  | assign line target operand ih => exact ih
  | binary line op left right ihleft ihright =>
      change (left.blank.doubles ++ right.blank.doubles).length =
        (left.doubles ++ right.doubles).length
      rw [List.length_append, List.length_append, ihleft, ihright]
  | minus line operand ih => exact ih
  | call line name arguments ih =>
      rw [blank_call, doubles_call, doubles_call]
      cases arguments with
      | none => rfl
      | some chain =>
          have hlengths : (chain.toList.map blank).map (fun e => e.doubles.length) =
              chain.toList.map fun e => e.doubles.length := by
            rw [List.map_map]
            exact List.map_congr_left fun e he => ih chain rfl e he
          simp only [Option.map_some, Option.getD_some, Chain.toList_map, List.length_flatMap,
            hlengths]

theorem length_doubles_eq (e f : Expression) (h : e.blank = f.blank) :
    e.doubles.length = f.doubles.length := by
  rw [← length_doubles_blank, h, length_doubles_blank]

/-- Nodes of two kinds are not equal. -/
theorem ctorIdx_of_beq {e f : Expression} (h : (e == f) = true) : e.ctorIdx = f.ctorIdx := by
  cases e with
  | call line name arguments =>
      cases f with
      | call => rfl
      | _ => cases arguments <;> cases h
  | _ => cases f <;> first | rfl | cases h

theorem ctorIdx_of_blank_eq {e f : Expression} (h : e.blank = f.blank) :
    e.ctorIdx = f.ctorIdx := by
  have hblank : ∀ e : Expression, e.blank.ctorIdx = e.ctorIdx := by
    intro e
    cases e with
    | call line name arguments => rw [blank_call]; rfl
    | _ => rfl
  rw [← hblank, h, hblank]

/-- Trees are equal if they have the same shape and their doubles stand for the same numbers. -/
theorem comparesBy (e : Expression) : ComparesBy blank doubles e := by
  induction e with
  | literal line value =>
      rintro (⟨line', value'⟩ | _)
      case literal =>
        change (line == line' && value == value') = true ↔ literal _ _ = literal _ _ ∧ _
        rw [Bool.and_eq_true, beq_iff_eq, Value.comparesBy, literal.injEq, and_assoc]
        rfl
      all_goals exact ComparesBy.iff_of_kind_ne ctorIdx_of_beq ctorIdx_of_blank_eq rfl
  | identifier line name =>
      rintro (_ | ⟨line', name'⟩ | _)
      case identifier =>
        change (line == line' && name == name') = true ↔
          identifier line name = identifier line' name' ∧ List.Forall₂ _ [] []
        rw [Bool.and_eq_true, beq_iff_eq, beq_iff_eq, identifier.injEq]
        exact (and_iff_left List.Forall₂.nil).symm
      all_goals exact ComparesBy.iff_of_kind_ne ctorIdx_of_beq ctorIdx_of_blank_eq rfl
  | assign line target operand ih =>
      rintro (_ | _ | ⟨line', target', operand'⟩ | _)
      case assign =>
        change (line == line' && target == target' && operand == operand') = true ↔
          assign line target operand.blank = assign line' target' operand'.blank ∧
            List.Forall₂ _ operand.doubles operand'.doubles
        rw [Bool.and_eq_true, Bool.and_eq_true, beq_iff_eq, beq_iff_eq, ih, assign.injEq]
        simp only [and_assoc]
      all_goals exact ComparesBy.iff_of_kind_ne ctorIdx_of_beq ctorIdx_of_blank_eq rfl
  | binary line op left right ihleft ihright =>
      rintro (_ | _ | _ | ⟨line', op', left', right'⟩ | _)
      case binary =>
        change (line == line' && op == op' && left == left' && right == right') = true ↔
          binary line op left.blank right.blank = binary line' op' left'.blank right'.blank ∧
            List.Forall₂ _ (left.doubles ++ right.doubles) (left'.doubles ++ right'.doubles)
        simp only [Bool.and_eq_true]
        rw [beq_iff_eq, beq_iff_eq, ihleft, ihright, and_assoc,
          ← and_forall₂_append_iff (length_doubles_eq left left'), binary.injEq]
        simp only [and_assoc]
      all_goals exact ComparesBy.iff_of_kind_ne ctorIdx_of_beq ctorIdx_of_blank_eq rfl
  | minus line operand ih =>
      rintro (_ | _ | _ | _ | ⟨line', operand'⟩ | _)
      case minus =>
        change (line == line' && operand == operand') = true ↔
          minus line operand.blank = minus line' operand'.blank ∧
            List.Forall₂ _ operand.doubles operand'.doubles
        rw [Bool.and_eq_true, beq_iff_eq, ih, minus.injEq, and_assoc]
      all_goals exact ComparesBy.iff_of_kind_ne ctorIdx_of_beq ctorIdx_of_blank_eq rfl
  | call line name arguments ih =>
      rintro (_ | _ | _ | _ | _ | ⟨line', name', arguments'⟩)
      case call =>
        have harguments := ComparesBy.option
          (fun chain hchain => ComparesBy.chain length_doubles_eq (ih chain hchain)) arguments'
        rw [beq_call, Bool.and_eq_true, Bool.and_eq_true, beq_iff_eq, beq_iff_eq, harguments,
          blank_call, blank_call, doubles_call, doubles_call, call.injEq]
        simp only [and_assoc]
      all_goals exact ComparesBy.iff_of_kind_ne ctorIdx_of_beq ctorIdx_of_blank_eq rfl

end Expression

end ScriptTree
