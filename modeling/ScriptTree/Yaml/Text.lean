/-!
# Positions in a text

A document is read from a list of characters together with the place of the first of them. Line
breaks are brought to one form before anything else looks at the text: a carriage return, alone or
before a line feed, and the next-line character all become a line feed, while the line and paragraph
separators stay as they are. So a line break is always one character from here on.
-/

namespace ScriptTree.Yaml

/-- A place in a text: line and column, both from zero. -/
structure Mark where
  line : Nat
  column : Nat
deriving DecidableEq, Repr

namespace Mark

def start : Mark := ⟨0, 0⟩

def right (m : Mark) : Mark := ⟨m.line, m.column + 1⟩

def newLine (m : Mark) : Mark := ⟨m.line + 1, 0⟩

/-- Messages count lines and columns from one, and leave out the very first place. -/
def text? (m : Mark) : Option String :=
  if m = start then none else some s!"line {m.line + 1} column {m.column + 1}"

end Mark

/-! ## Characters -/

/-- The characters a document may hold: tabs, line breaks, and whatever prints. -/
def isAllowed (c : Char) : Bool :=
  c == '\t' || c == '\n' || c == '\r' || c == '\u0085' || (' ' ≤ c && c ≤ '~') ||
    ('\u00a0' ≤ c && c ≤ '\ufffd') || 0x10000 ≤ c.toNat

/-- A line break, once the text has been normalized. -/
def isBreak (c : Char) : Bool :=
  c == '\n' || c == '\u2028' || c == '\u2029'

def isBlank (c : Char) : Bool :=
  c == ' ' || c == '\t'

/-- The letters of names: ASCII letters and digits, the underscore and the hyphen. -/
def isWordChar (c : Char) : Bool :=
  c.isAlphanum || c == '_' || c == '-'

/-- The value of a hexadecimal digit. -/
def hexValue? (c : Char) : Option Nat :=
  if c.isDigit then some (c.toNat - 48)
  else if 'a' ≤ c ∧ c ≤ 'f' then some (c.toNat - 87)
  else if 'A' ≤ c ∧ c ≤ 'F' then some (c.toNat - 55)
  else none

/-- Whether a text is over or goes on with a blank or a line break. -/
def endsWord : List Char → Bool
  | [] => true
  | c :: _ => isBlank c || isBreak c

/-- Whether a text begins with three times `d` as a word of their own. -/
def startsMarker (d : Char) : List Char → Bool
  | a :: b :: c :: rest => a == d && b == d && c == d && endsWord rest
  | _ => false

def startsDocumentMarker (text : List Char) : Bool :=
  startsMarker '-' text || startsMarker '.' text

/-- Brings all line breaks to one character each. -/
def normalizeBreaks : List Char → List Char
  | '\r' :: '\n' :: rest => '\n' :: normalizeBreaks rest
  | c :: rest => (if c == '\r' || c == '\u0085' then '\n' else c) :: normalizeBreaks rest
  | [] => []

/-- How many octets a list of characters takes up when it is stored. -/
def octets : List Char → Nat
  | [] => 0
  | c :: cs => c.utf8Size + octets cs

/-! ## Cursors -/

/-- The rest of a text and the place of its first character. -/
structure Cursor where
  rest : List Char
  mark : Mark
deriving DecidableEq, Repr

namespace Cursor

def start (text : List Char) : Cursor :=
  ⟨normalizeBreaks text, Mark.start⟩

/-- Passes over one character that is no line break. -/
def skip (c : Cursor) : Cursor :=
  ⟨c.rest.drop 1, c.mark.right⟩

/-- Passes over one line break, if there is one. -/
def skipBreak (c : Cursor) : Cursor :=
  match c.rest with
  | b :: rest => if isBreak b then ⟨rest, c.mark.newLine⟩ else c
  | [] => c

def isAt (c : Cursor) (d : Char) : Bool :=
  c.rest.head? == some d

/-- The longest run of characters with a property, which no line break has, and what follows it. -/
def span (p : Char → Bool) (c : Cursor) : List Char × Cursor :=
  let taken := c.rest.takeWhile p
  (taken, ⟨c.rest.drop taken.length, ⟨c.mark.line, c.mark.column + taken.length⟩⟩)

def skipWhile (p : Char → Bool) (c : Cursor) : Cursor :=
  (c.span p).2

/-- The characters between a cursor and a later one on the same line. -/
def between (c d : Cursor) : List Char :=
  c.rest.take (d.mark.column - c.mark.column)

/-- Passes over blanks and a comment to the end of the line, and over its break. It fails where
something else stands on the line. -/
def endLine? (c : Cursor) : Option Cursor :=
  let c := c.skipWhile isBlank
  let c := if c.isAt '#' then c.skipWhile (!isBreak ·) else c
  if c.rest.isEmpty || c.rest.head?.any isBreak then some c.skipBreak else none

end Cursor

end ScriptTree.Yaml
