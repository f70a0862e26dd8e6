import ScriptTree.Expression

/-!
# Session options

The two choices a session is opened with.
-/

namespace ScriptTree

/-- How a session builds its trees. -/
structure Options where
  /-- Whether operators on number literals are replaced by their results. -/
  constantFolding : Bool
  /-- The number of the first source line. -/
  firstLine : Line
deriving DecidableEq, Repr

/-- Folding is on and lines count from one. -/
def Options.default : Options :=
  ⟨true, 1⟩

end ScriptTree
