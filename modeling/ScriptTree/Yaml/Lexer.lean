import ScriptTree.Yaml.Block
import ScriptTree.Yaml.Plain
import ScriptTree.Yaml.Quoted
import ScriptTree.Yaml.Token

/-!
# From text to tokens

The reader goes through the text once. Two things make it more than a splitter. Block collections
open and close with the column of the next token, so a stack of columns is kept. And a key of a
mapping is known as a key only when its colon is met, on the same line and not too far behind; until
then its place among the tokens is remembered, and the tokens that announce it are put there later.
Every failure means that the text is no document, and which one it was does not matter.
-/

namespace ScriptTree.Yaml

/-- A node that will turn out to be a key if a colon follows it in time. -/
structure PendingKey where
  /-- How many tokens stand before the node. -/
  position : Nat
  /-- Where the node starts. -/
  mark : Mark
  /-- How many octets of the line the reader has passed over since. -/
  age : Nat
  /-- Whether the node stands where only a key can stand. -/
  required : Bool
deriving DecidableEq, Repr

/-- A reader of tokens. -/
structure Lexer where
  cursor : Cursor
  /-- The tokens so far, the last one first. -/
  emitted : List Token
  /-- The column of the innermost block collection, and minus one outside. -/
  indent : Int
  /-- The columns of the block collections around it. -/
  outer : List Int
  /-- Whether a key may start here. -/
  keyAllowed : Bool
  /-- The possible key at this level of brackets. -/
  pending : Option PendingKey
  /-- The possible keys outside the brackets, level by level. -/
  outerPending : List (Option PendingKey)
deriving DecidableEq, Repr

namespace Lexer

def start (text : List Char) : Lexer :=
  ⟨.start text, [], -1, [], true, none, []⟩

/-- Whether the reader is between brackets. -/
def inFlow (l : Lexer) : Bool :=
  !l.outerPending.isEmpty

def emit (l : Lexer) (kind : Token.Kind) (mark : Mark) : Lexer :=
  { l with emitted := ⟨kind, mark⟩ :: l.emitted }

/-- Puts a token at a position among those that are there. -/
def insert (l : Lexer) (position : Nat) (kind : Token.Kind) (mark : Mark) : Lexer :=
  let later := l.emitted.length - position
  { l with emitted := l.emitted.take later ++ ⟨kind, mark⟩ :: l.emitted.drop later }

/-! ## Blanks and comments -/

/-- Passes over blanks, comments and line breaks. Outside brackets a new line allows a key again,
and a tab is a blank only where no key may start. A line may begin with a byte order mark, which
fills its first column. -/
def skipGap (inFlow : Bool) : Bool → Bool → List Char → Mark → Cursor × Bool
  | keyAllowed, _, [], mark => (⟨[], mark⟩, keyAllowed)
  | keyAllowed, inComment, c :: rest, mark =>
    if isBreak c then
      skipGap inFlow (keyAllowed || !inFlow) false rest mark.newLine
    else if inComment || c == ' ' || (c == '\t' && (inFlow || !keyAllowed)) then
      skipGap inFlow keyAllowed inComment rest mark.right
    else if c == '\ufeff' && mark.column == 0 then
      skipGap inFlow keyAllowed false rest mark.right
    else if c == '#' then
      skipGap inFlow keyAllowed true rest mark.right
    else
      (⟨c :: rest, mark⟩, keyAllowed)

def toToken (l : Lexer) : Lexer :=
  let (cursor, keyAllowed) := skipGap l.inFlow l.keyAllowed false l.cursor.rest l.cursor.mark
  { l with cursor, keyAllowed }

/-! ## Indentation -/

/-- Opens a block collection at a column that lies right of the innermost one. -/
def openBlock (l : Lexer) (column position : Nat) (kind : Token.Kind) (mark : Mark) : Lexer :=
  if !l.inFlow && l.indent < column then
    { l.insert position kind mark with indent := column, outer := l.indent :: l.outer }
  else
    l

/-- Closes the block collections that lie right of a column. -/
def closeGo (column : Int) (mark : Mark) :
    Int → List Int → List Token → Int × List Int × List Token
  | indent, [], emitted => (indent, [], emitted)
  | indent, next :: outer, emitted =>
    if column < indent then
      closeGo column mark next outer (⟨.blockEnd, mark⟩ :: emitted)
    else
      (indent, next :: outer, emitted)

/-- Closes the block collections that lie right of a column, outside brackets. -/
def closeBlocks (l : Lexer) (column : Int) : Lexer :=
  if l.inFlow then
    l
  else
    let (indent, outer, emitted) := closeGo column l.cursor.mark l.indent l.outer l.emitted
    { l with indent, outer, emitted }

/-! ## Possible keys -/

/-- Drops a possible key; one that had to be a key must not be dropped. -/
def drop? : Option PendingKey → Option (Option PendingKey)
  | some k => if k.required then none else some none
  | none => some none

/-- Makes a possible key older by what lies between two places, and drops it when it has become too
old. A key ends on the line on which it starts, within 1024 octets. -/
def expire? (since now : Cursor) : Option PendingKey → Option (Option PendingKey)
  | some k =>
    let age := k.age + octets (since.between now)
    if since.mark.line < now.mark.line || 1024 < age then drop? (some k)
    else some (some { k with age })
  | none => some none

/-- Makes the possible keys older by what the reader has passed over since a place on its way. -/
def expireKeys? (l : Lexer) (since : Cursor) : Option Lexer := do
  return { l with
    pending := ← expire? since l.cursor l.pending
    outerPending := ← l.outerPending.mapM (expire? since l.cursor) }

def dropKey? (l : Lexer) : Option Lexer := do
  return { l with pending := ← drop? l.pending }

/-- Remembers that the next node may be a key. It has to be one when it stands at the column of the
innermost block collection. -/
def saveKey? (l : Lexer) : Option Lexer :=
  if l.keyAllowed then do
    let l ← l.dropKey?
    let mark := l.cursor.mark
    let required := !l.inFlow && l.indent == (mark.column : Int)
    return { l with pending := some ⟨l.emitted.length, mark, 0, required⟩ }
  else
    some l

/-! ## Tokens of one sign -/

/-- Adds the token of the next character. -/
def sign (l : Lexer) (kind : Token.Kind) : Lexer :=
  { l.emit kind l.cursor.mark with cursor := l.cursor.skip }

/-- An opening bracket, behind which a key may start. -/
def openFlow? (l : Lexer) (kind : Token.Kind) : Option Lexer := do
  let l ← l.saveKey?
  return { l.sign kind with
    keyAllowed := true, pending := none, outerPending := l.pending :: l.outerPending }

/-- A closing bracket, which returns to the possible key outside. -/
def closeFlow? (l : Lexer) (kind : Token.Kind) : Option Lexer := do
  let l := { (← l.dropKey?).sign kind with keyAllowed := false }
  match l.outerPending with
  | [] => return l
  | pending :: outerPending => return { l with pending, outerPending }

def flowEntry? (l : Lexer) : Option Lexer := do
  return { (← l.dropKey?).sign .flowEntry with keyAllowed := true }

/-- A hyphen. Outside brackets it opens a sequence, where one may start. -/
def blockEntry? (l : Lexer) : Option Lexer := do
  let l ←
    if l.inFlow then some l
    else if l.keyAllowed then
      let mark := l.cursor.mark
      some (l.openBlock mark.column l.emitted.length .blockSequenceStart mark)
    else none
  return { (← l.dropKey?).sign .blockEntry with keyAllowed := true }

/-- A question mark, which announces a key. Outside brackets it opens a mapping. -/
def key? (l : Lexer) : Option Lexer := do
  let l ←
    if l.inFlow then some l
    else if l.keyAllowed then
      let mark := l.cursor.mark
      some (l.openBlock mark.column l.emitted.length .blockMappingStart mark)
    else none
  return { (← l.dropKey?).sign .key with keyAllowed := !l.inFlow }

/-- A colon. It makes a key of the possible key, which opens a mapping if it is the first one there.
Without a possible key it follows an announced one, or none at all. -/
def value? (l : Lexer) : Option Lexer :=
  match l.pending with
  | some k =>
    let l := (l.insert k.position .key k.mark).openBlock k.mark.column k.position
      .blockMappingStart k.mark
    some { l.sign .value with keyAllowed := false, pending := none }
  | none =>
    if l.inFlow then
      some { l.sign .value with keyAllowed := false }
    else if l.keyAllowed then
      let mark := l.cursor.mark
      let l := l.openBlock mark.column l.emitted.length .blockMappingStart mark
      some { l.sign .value with keyAllowed := true }
    else
      none

/-! ## Tokens at the start of a line -/

/-- Ends everything that indentation holds open. -/
def endDocument? (l : Lexer) : Option Lexer := do
  return { (← (l.closeBlocks (-1)).dropKey?) with keyAllowed := false }

/-- The marker of three signs that starts or ends a document. -/
def documentMarker? (l : Lexer) (kind : Token.Kind) : Option Lexer := do
  let l ← l.endDocument?
  return { l.emit kind l.cursor.mark with cursor := l.cursor.skip.skip.skip }

/-- A number of a version, of at most nine digits. -/
def versionNumber? (c : Cursor) : Option (Nat × Cursor) :=
  let (digits, c) := c.span Char.isDigit
  if digits.isEmpty || 9 < digits.length then none
  else some (digits.foldl (fun n d => 10 * n + (d.toNat - 48)) 0, c)

/-- The two numbers of a version. -/
def version? (c : Cursor) : Option (Token.Kind × Cursor) := do
  let (major, c) ← versionNumber? (c.skipWhile isBlank)
  if c.isAt '.' then
    let (minor, c) ← versionNumber? c.skip
    return (.version major minor, c)
  else
    none

/-- A handle and the beginning of tags that it abbreviates, which counts up to a zero octet. -/
def abbreviation? (c : Cursor) : Option (Token.Kind × Cursor) := do
  let (handle, c) ← Tag.handle? (c.skipWhile isBlank)
  if (handle == ['!'] || (1 < handle.length && handle.getLast? == some '!')) &&
      c.rest.head?.any isBlank then
    let (meaning, c) ← Tag.uri? true (c.skipWhile isBlank)
    if meaning.isEmpty || !endsWord c.rest then none
    else return (.abbreviation handle meaning.upToZero, c)
  else
    none

/-- A line that begins with a percent sign and concerns the document as a whole. -/
def directive? (l : Lexer) : Option Lexer := do
  let l ← l.endDocument?
  let (name, c) := l.cursor.skip.span isWordChar
  if endsWord c.rest then
    let (kind, c) ←
      if name == "YAML".toList then version? c
      else if name == "TAG".toList then abbreviation? c
      else none
    return { l.emit kind l.cursor.mark with cursor := ← c.endLine? }
  else
    none

/-! ## Nodes and what stands before them -/

/-- The name of an anchor or alias behind its sign. -/
def name? (c : Cursor) : Option (String × Cursor) :=
  let (name, c) := c.skip.span isWordChar
  if !name.isEmpty && (endsWord c.rest || "?:,]\x7d%@`".toList.any c.isAt) then
    some (String.ofList name, c)
  else
    none

/-- Adds a token that may be, or may stand before, a key. -/
def keyed? (l : Lexer) (read : Lexer → Option (Token.Kind × Cursor)) : Option Lexer := do
  let l ← l.saveKey?
  let (kind, cursor) ← read l
  return { l.emit kind l.cursor.mark with cursor, keyAllowed := false }

def quoted? (l : Lexer) (single : Bool) : Option Lexer :=
  l.keyed? fun l => do
    let (text, c) ← Quoted.read? single l.cursor
    return (.scalar (if single then .singleQuoted else .doubleQuoted) (String.ofList text), c)

/-- A plain scalar. If it ran into a new line, a key may start there. -/
def plain? (l : Lexer) : Option Lexer := do
  let l ← l.saveKey?
  let r ← Plain.read? l.inFlow (l.indent + 1) l.cursor
  return { l.emit (.scalar .plain (String.ofList r.text)) l.cursor.mark with
    cursor := r.cursor, keyAllowed := r.linesEnded }

/-- A block scalar, which is no key. -/
def block? (l : Lexer) (literal : Bool) : Option Lexer := do
  let l ← l.dropKey?
  let (text, cursor) ← Block.read? literal l.indent l.cursor
  let kind := Token.Kind.scalar (if literal then .literal else .folded) (String.ofList text)
  return { l.emit kind l.cursor.mark with cursor, keyAllowed := true }

/-- The token that begins at the next character. -/
def token? (l : Lexer) : Option Lexer :=
  let text := l.cursor.rest
  let atLineStart := l.cursor.mark.column == 0
  match text with
  | [] => none
  | c :: rest =>
    if atLineStart && c == '%' then l.directive?
    else if atLineStart && startsMarker '-' text then l.documentMarker? .documentStart
    else if atLineStart && startsMarker '.' text then l.documentMarker? .documentEnd
    else if c == '[' then l.openFlow? .flowSequenceStart
    else if c == '{' then l.openFlow? .flowMappingStart
    else if c == ']' then l.closeFlow? .flowSequenceEnd
    else if c == '}' then l.closeFlow? .flowMappingEnd
    else if c == ',' then l.flowEntry?
    else if c == '-' && endsWord rest then l.blockEntry?
    else if c == '?' && (l.inFlow || endsWord rest) then l.key?
    else if c == ':' && (l.inFlow || endsWord rest) then l.value?
    else if c == '*' then
      l.keyed? fun l => (name? l.cursor).map fun (name, c) => (.reference name, c)
    else if c == '&' then
      l.keyed? fun l => (name? l.cursor).map fun (name, c) => (.anchor name, c)
    else if c == '!' then
      l.keyed? fun l => (Tag.read? l.inFlow l.cursor).map fun (tag, c) => (.tag tag, c)
    else if c == '|' && !l.inFlow then l.block? true
    else if c == '>' && !l.inFlow then l.block? false
    else if c == '\'' then l.quoted? true
    else if c == '"' then l.quoted? false
    else if Plain.mayStart l.inFlow text then l.plain?
    else none

/-- The end of the text, which counts as the start of a line. -/
def textEnd? (l : Lexer) : Option Lexer := do
  let mark := l.cursor.mark
  let mark := if mark.column == 0 then mark else mark.newLine
  let l ← { l with cursor := ⟨[], mark⟩ }.endDocument?
  return l.emit .textEnd mark

/-- Reads all tokens from a reader that stands before one. Each round takes a character or ends the
text, so `fuel` rounds suffice for a text that is shorter than `fuel`. -/
def run : Nat → Lexer → Option (List Token)
  | 0, _ => none
  | fuel + 1, l => do
    let l := l.closeBlocks l.cursor.mark.column
    if l.cursor.rest.isEmpty then
      return (← l.textEnd?).emitted.reverse
    else
      run fuel (← (← l.token?).toToken.expireKeys? l.cursor)

end Lexer

/-- The tokens of a text, or nothing where the text is no document. -/
def Token.ofText? (text : String) : Option (List Token) :=
  if text.toList.all isAllowed then
    Lexer.run (text.length + 1) (Lexer.start text.toList).toToken
  else
    none

end ScriptTree.Yaml
