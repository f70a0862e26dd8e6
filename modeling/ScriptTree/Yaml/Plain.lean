import ScriptTree.Yaml.Gap

/-!
# Plain scalars

Text without quotes. It ends before a colon that ends a word, before a comment, before a document
marker, and in the block style where the indentation falls back. Between brackets it also ends
before the characters that structure a collection.
-/

namespace ScriptTree.Yaml.Plain

/-- A plain scalar and what follows it. -/
structure Result where
  text : List Char
  /-- Whether lines ended behind the last word, before the place where reading goes on. -/
  linesEnded : Bool
  cursor : Cursor
deriving DecidableEq, Repr

/-- The characters that structure a collection between brackets. -/
def isFlowIndicator (c : Char) : Bool :=
  ",[]\x7b\x7d".toList.contains c

/-- Whether a text may begin a plain scalar. -/
def mayStart (inFlow : Bool) : List Char → Bool
  | [] => false
  | c :: rest =>
    !(endsWord [c] || "-?:,[]\x7b\x7d#&*!|>'\"%@`".toList.contains c) ||
      (c == '-' && !rest.head?.any isBlank) ||
      (!inFlow && (c == '?' || c == ':') && !endsWord rest)

/-- Whether the scalar ends at the first character after a gap. -/
def endsAfterGap (inFlow : Bool) (least : Int) (text : List Char) (mark : Mark) : Bool :=
  (!inFlow && (mark.column : Int) < least) || (mark.column == 0 && startsDocumentMarker text) ||
    text.head? == some '#'

/-- Whether the scalar ends at a character that is neither blank nor break. -/
def endsAt (inFlow : Bool) (c : Char) (rest : List Char) : Bool :=
  (c == ':' && endsWord rest) || (inFlow && isFlowIndicator c)

/-- A colon between brackets must not touch one of these, or a question mark. -/
def isMisplacedColon (inFlow : Bool) (c : Char) (rest : List Char) : Bool :=
  inFlow && c == ':' && rest.head?.any fun d => d == '?' || isFlowIndicator d

/-- Reads on, given the words so far in reverse and the gap after them. A tab is no indentation, so
behind a line break it must not stand left of `least`, the least column of the scalar. -/
def go (inFlow : Bool) (least : Int) (words : List Char) (gap : Gap) :
    List Char → Mark → Option Result
  | [], mark => some ⟨words.reverse, gap.hasBreak, ⟨[], mark⟩⟩
  | c :: rest, mark =>
    if isBreak c then
      go inFlow least words (gap.addBreak c) rest mark.newLine
    else if isBlank c then
      if gap.hasBreak && c == '\t' && (mark.column : Int) < least then
        none
      else
        go inFlow least words (gap.addBlank c) rest mark.right
    else if !gap.isEmpty && endsAfterGap inFlow least (c :: rest) mark then
      some ⟨words.reverse, gap.hasBreak, ⟨c :: rest, mark⟩⟩
    else if isMisplacedColon inFlow c rest then
      none
    else if endsAt inFlow c rest then
      some ⟨words.reverse, gap.hasBreak, ⟨c :: rest, mark⟩⟩
    else
      go inFlow least (c :: (gap.fold.reverse ++ words)) .none rest mark.right

def read? (inFlow : Bool) (least : Int) (c : Cursor) : Option Result :=
  go inFlow least [] .none c.rest c.mark

end ScriptTree.Yaml.Plain
