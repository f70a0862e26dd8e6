import ScriptTree.Yaml.Text

/-!
# Block scalars

Text in indented lines below a vertical bar, which keeps the lines, or a greater-than sign, which
folds them. The header may fix how the text ends and how far it is indented; otherwise the first
line with content tells.
-/

namespace ScriptTree.Yaml.Block

/-- What happens to the line breaks at the end of the text: all are dropped, one is kept, or all are
kept. -/
inductive Chomping where
  | strip | clip | keep
deriving DecidableEq, Repr

/-- The header of a block scalar: the end of the text, and the indentation if it is given. -/
structure Header where
  chomping : Chomping
  increment : Option Nat
  cursor : Cursor
deriving DecidableEq, Repr

/-- The sign for the end of the text, if there is one. -/
def chomping (c : Cursor) : Chomping × Cursor :=
  match c.rest with
  | '+' :: _ => (.keep, c.skip)
  | '-' :: _ => (.strip, c.skip)
  | _ => (.clip, c)

/-- The digit for the indentation, if there is one; it must not be zero. -/
def increment? (c : Cursor) : Option (Option Nat × Cursor) :=
  match c.rest with
  | d :: _ =>
    if d == '0' then none
    else if d.isDigit then some (some (d.toNat - 48), c.skip)
    else some (none, c)
  | [] => some (none, c)

/-- Reads the header behind the sign of the scalar. The two parts come in either order. -/
def header? (c : Cursor) : Option Header := do
  let (end₁, c) := chomping c
  let (increment, c) ← increment? c
  let (end₂, c) := if end₁ = .clip && increment.isSome then chomping c else (end₁, c)
  return ⟨end₂, increment, ← c.endLine?⟩

/-- The text read so far. -/
structure State where
  /-- The column of the text, once it is known. -/
  indent : Option Nat
  /-- The widest margin so far. -/
  widest : Nat
  /-- Whether the reader is inside a line with content. -/
  inLine : Bool
  /-- The characters so far, in reverse. -/
  text : List Char
  /-- Whether the last line with content began with a blank. -/
  startedBlank : Bool
  /-- The break behind the last line with content. -/
  leading : List Char
  /-- The breaks of the empty lines after that. -/
  trailing : List Char
deriving DecidableEq, Repr

/-- Whether a column still belongs to the margin. -/
def State.inMargin (s : State) (column : Nat) : Bool :=
  s.indent.all (column < ·)

/-- Settles the indentation, which is at least `least`. -/
def State.settle (s : State) (least : Nat) : State :=
  { s with indent := some (s.indent.getD (max s.widest least)) }

/-- Begins a line with content whose first character is `c`. Folding joins two lines by a space or
by the empty lines between them, but it leaves lines alone that begin with a blank. -/
def State.beginLine (s : State) (literal : Bool) (c : Char) : State :=
  let joined :=
    if !literal && s.leading == ['\n'] && !s.startedBlank && !isBlank c then
      if s.trailing.isEmpty then [' '] else []
    else
      s.leading
  { s with
    inLine := true
    text := c :: (s.trailing.reverse ++ (joined.reverse ++ s.text))
    startedBlank := isBlank c
    leading := []
    trailing := [] }

/-- Reads on. A tab is no indentation, so it must not stand in the margin. -/
def go (literal : Bool) (least : Nat) (s : State) : List Char → Mark → Option (State × Cursor)
  | [], mark => some (s, ⟨[], mark⟩)
  | c :: rest, mark =>
    if s.inLine then
      if isBreak c then
        go literal least { s with inLine := false, leading := [c] } rest mark.newLine
      else
        go literal least { s with text := c :: s.text } rest mark.right
    else if c == ' ' && s.inMargin mark.column then
      go literal least s rest mark.right
    else if c == '\t' && s.inMargin mark.column then
      none
    else
      let s := { s with widest := max s.widest mark.column }
      if isBreak c then
        go literal least { s with trailing := s.trailing ++ [c] } rest mark.newLine
      else
        let s := s.settle least
        if s.indent == some mark.column then
          go literal least (s.beginLine literal c) rest mark.right
        else
          some (s, ⟨c :: rest, mark⟩)

/-- The text with the line breaks at its end that are to stay. -/
def State.finish (s : State) : Chomping → List Char
  | .strip => s.text.reverse
  | .clip => s.text.reverse ++ s.leading
  | .keep => s.text.reverse ++ s.leading ++ s.trailing

/-- Reads a block scalar from its sign on, inside a collection at column `indent`. -/
def read? (literal : Bool) (indent : Int) (c : Cursor) : Option (List Char × Cursor) := do
  let header ← header? c.skip
  let first := header.increment.map fun n => if 0 ≤ indent then indent.toNat + n else n
  let least := max (indent + 1).toNat 1
  let start : State := ⟨first, 0, false, [], false, [], []⟩
  let (s, c) ← go literal least start header.cursor.rest header.cursor.mark
  return (s.finish header.chomping, c)

end ScriptTree.Yaml.Block
