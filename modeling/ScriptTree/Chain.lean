/-!
# Chains

The lists of the syntax tree: parameters, arguments, statements, clauses. A chain is never empty,
so where a list may be missing it is an optional chain, and "no list" stays apart from every list.
Chains grow at their end only, which keeps the elements in the order in which they were met.
-/

namespace ScriptTree

/-- A list with at least one element. -/
structure Chain (α : Type) where
  head : α
  tail : List α
deriving DecidableEq, Repr

namespace Chain

variable {α : Type}

def singleton (first : α) : Chain α :=
  ⟨first, []⟩

/-- Adds an element after the last one. -/
def append (c : Chain α) (item : α) : Chain α :=
  ⟨c.head, c.tail ++ [item]⟩

/-- Adds an element to a chain that may not exist yet. -/
def appendTo (c : Option (Chain α)) (item : α) : Chain α :=
  match c with
  | some c => c.append item
  | none => singleton item

def toList (c : Chain α) : List α :=
  c.head :: c.tail

def length (c : Chain α) : Nat :=
  c.tail.length + 1

/-- The element at a position, counted from zero. -/
def get? (c : Chain α) (i : Nat) : Option α :=
  c.toList[i]?

/-- Runs a loop over the elements in order, until its body ends it. -/
def loop {β : Type} {m : Type → Type} [Monad m] (c : Chain α) (start : β)
    (body : α → β → m (ForInStep β)) : m β := do
  match ← body c.head start with
  | .done result => pure result
  | .yield next => forIn c.tail next body

instance {m : Type → Type} [Monad m] : ForIn m (Chain α) α := ⟨loop⟩

/-- The same shape with every element replaced. -/
def map {β : Type} (f : α → β) (c : Chain α) : Chain β :=
  ⟨f c.head, c.tail.map f⟩

/-- Two chains agree when they have the same length and agree element by element. -/
def beq [BEq α] (c d : Chain α) : Bool :=
  c.head == d.head && c.tail == d.tail

instance [BEq α] : BEq (Chain α) := ⟨beq⟩

@[simp] theorem toList_singleton (a : α) : (singleton a).toList = [a] := rfl

@[simp] theorem toList_append (c : Chain α) (a : α) : (c.append a).toList = c.toList ++ [a] := rfl

/-- A loop over a chain is the loop over its elements. -/
theorem forIn_eq_forIn_toList {β : Type} {m : Type → Type} [Monad m] (c : Chain α) (start : β)
    (body : α → β → m (ForInStep β)) : forIn c start body = forIn c.toList start body := by
  rw [toList, List.forIn_cons]
  rfl

@[simp] theorem length_toList (c : Chain α) : c.toList.length = c.length := rfl

/-- An absent chain counts as the empty list here, so one law covers both cases. -/
theorem toList_appendTo (c : Option (Chain α)) (a : α) :
    (appendTo c a).toList = (c.map toList).getD [] ++ [a] := by
  cases c <;> rfl

@[simp] theorem toList_map {β : Type} (f : α → β) (c : Chain α) :
    (c.map f).toList = c.toList.map f := rfl

@[simp] theorem length_map {β : Type} (f : α → β) (c : Chain α) :
    (c.map f).length = c.length := by
  simp only [length, map, List.length_map]

theorem map_map {β γ : Type} (g : β → γ) (f : α → β) (c : Chain α) :
    (c.map f).map g = c.map (g ∘ f) := by
  simp only [map, List.map_map, Function.comp_apply]

theorem map_singleton {β : Type} (f : α → β) (a : α) :
    (singleton a).map f = singleton (f a) := rfl

theorem map_append {β : Type} (f : α → β) (c : Chain α) (a : α) :
    (c.append a).map f = (c.map f).append (f a) := by
  simp only [append, map, List.map_append, List.map_cons, List.map_nil]

/-- A chain that starts with the element is mapped like any other. -/
theorem map_appendTo {β : Type} (f : α → β) (c : Option (Chain α)) (a : α) :
    (appendTo c a).map f = appendTo (c.map (map f)) (f a) := by
  cases c with
  | none => rfl
  | some c => exact map_append f c a

/-- Functions that agree on the elements of a chain map it to the same chain. -/
theorem map_congr {β : Type} {f g : α → β} {c : Chain α}
    (h : ∀ a ∈ c.toList, f a = g a) : c.map f = c.map g := by
  obtain ⟨first, rest⟩ := c
  have hfirst : f first = g first := h first List.mem_cons_self
  have hrest : rest.map f = rest.map g :=
    List.map_congr_left fun a ha => h a (List.mem_cons_of_mem first ha)
  simp only [map, hfirst, hrest]

/-- A function that fixes the elements of a chain fixes the chain. -/
theorem map_eq_self {f : α → α} {c : Chain α} (h : ∀ a ∈ c.toList, f a = a) :
    c.map f = c := by
  have hid : c.map f = c.map id := map_congr h
  simpa only [map, id_eq, List.map_id] using hid

end Chain

end ScriptTree
