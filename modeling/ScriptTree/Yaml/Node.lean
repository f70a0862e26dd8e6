import ScriptTree.Yaml.Token

/-!
# Nodes

The tree that a document stands for. A node may be marked with an anchor, and an alias elsewhere
stands for the marked node. Anchors are told apart by numbers here, and a number that was given
twice belongs to the later node.
-/

namespace ScriptTree.Yaml

/-- What may stand before a node: an anchor, and the name of its type. -/
structure Properties where
  anchor : Option Nat
  tag : Option Tag
deriving DecidableEq, Repr

def Properties.none : Properties :=
  ⟨Option.none, Option.none⟩

/-- A node of a document. Its mark is where it starts, properties included. -/
inductive Node where
  | scalar (mark : Mark) (properties : Properties) (style : Style) (text : String)
  | sequence (mark : Mark) (properties : Properties) (items : List Node)
  | mapping (mark : Mark) (properties : Properties) (entries : List (Node × Node))
  /-- An alias, which stands for the node whose anchor has a number. -/
  | reference (mark : Mark) (target : Nat)

namespace Node

/-- A node that was left out. -/
def empty (mark : Mark) : Node :=
  .scalar mark .none .plain ""

def mark : Node → Mark
  | scalar mark _ _ _ | sequence mark _ _ | mapping mark _ _ | reference mark _ => mark

def properties : Node → Properties
  | scalar _ properties _ _ | sequence _ properties _ | mapping _ properties _ => properties
  | reference _ _ => .none

/-- Whether the node is a plain scalar without text, as one that was left out. -/
def isEmpty : Node → Bool
  | scalar _ _ .plain text => text.isEmpty
  | _ => false

mutual

/-- The size of a tree: one for a scalar or an alias, and two for a collection beyond what it
holds. -/
def size : Node → Nat
  | scalar .. | reference .. => 1
  | sequence _ _ items => 2 + sizeItems items
  | mapping _ _ entries => 2 + sizeEntries entries

def sizeItems : List Node → Nat
  | [] => 0
  | item :: items => item.size + sizeItems items

def sizeEntries : List (Node × Node) → Nat
  | [] => 0
  | (key, value) :: entries => key.size + value.size + sizeEntries entries

end

mutual

/-- The nodes with an anchor, in the order of their starts. -/
def anchored (node : Node) : List (Nat × Node) :=
  let own := node.properties.anchor.toList.map (·, node)
  match node with
  | scalar .. | reference .. => own
  | sequence _ _ items => own ++ anchoredItems items
  | mapping _ _ entries => own ++ anchoredEntries entries

def anchoredItems : List Node → List (Nat × Node)
  | [] => []
  | item :: items => item.anchored ++ anchoredItems items

def anchoredEntries : List (Node × Node) → List (Nat × Node)
  | [] => []
  | (key, value) :: entries => key.anchored ++ value.anchored ++ anchoredEntries entries

end

end Node

/-- A document is the tree below its root. -/
structure Document where
  root : Node

/-- The node that the aliases of a number stand for. -/
def Document.target? (d : Document) (number : Nat) : Option Node :=
  (d.root.anchored.findRev? (·.1 == number)).map (·.2)

end ScriptTree.Yaml
