import ScriptTree.Yaml.Text

/-!
# Gaps between words

A scalar that runs over several lines is folded: the line break between two words becomes a space,
and of several breaks in a row only the first is dropped. A gap is what a reader has seen since the
last word and has not yet committed to.
-/

namespace ScriptTree.Yaml

/-- Blanks within a line, or at least one line break. Blanks around breaks do not count. The first
break is missing where an escape cancelled it. -/
inductive Gap where
  | blanks (text : List Char)
  | breaks (first : Option Char) (more : List Char)
deriving DecidableEq, Repr

namespace Gap

def none : Gap := .blanks []

def isEmpty : Gap → Bool
  | .blanks [] => true
  | _ => false

/-- Whether a line ended since the last word. -/
def hasBreak : Gap → Bool
  | .blanks _ => false
  | .breaks _ _ => true

def addBlank (c : Char) : Gap → Gap
  | .blanks text => .blanks (text ++ [c])
  | .breaks first more => .breaks first more

def addBreak (c : Char) : Gap → Gap
  | .blanks _ => .breaks (some c) []
  | .breaks first more => .breaks first (more ++ [c])

/-- What the gap contributes to the scalar. Only a plain line feed folds into a space. -/
def fold : Gap → List Char
  | .blanks text => text
  | .breaks (some '\n') [] => [' ']
  | .breaks (some '\n') more => more
  | .breaks (some c) more => c :: more
  | .breaks Option.none more => more

end Gap

end ScriptTree.Yaml
