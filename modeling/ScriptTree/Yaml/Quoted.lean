import ScriptTree.Yaml.Gap

/-!
# Quoted scalars

Text between single quotes, in which a quote is written twice, or between double quotes, in which a
backslash starts an escape. Lines are folded in both.
-/

namespace ScriptTree.Yaml.Quoted

/-- Where a reader stands: between characters, behind a single quote, behind a backslash, or within
the digits of a code point. -/
inductive Place where
  | text
  | quote
  | backslash
  | code (left : Nat) (value : Nat)
deriving DecidableEq, Repr

/-- The character of an escape of one letter. -/
def shortEscape? (c : Char) : Option Char :=
  match c with
  | '0' => some '\x00'
  | 'a' => some '\x07'
  | 'b' => some '\x08'
  | 't' | '\t' => some '\t'
  | 'n' => some '\n'
  | 'v' => some '\x0b'
  | 'f' => some '\x0c'
  | 'r' => some '\r'
  | 'e' => some '\x1b'
  | ' ' | '"' | '/' | '\\' => some c
  | 'N' => some '\u0085'
  | '_' => some '\u00a0'
  | 'L' => some '\u2028'
  | 'P' => some '\u2029'
  | _ => none

/-- How many digits follow the letter of an escape that gives a code point. -/
def codeLength? : Char → Option Nat
  | 'x' => some 2
  | 'u' => some 4
  | 'U' => some 8
  | _ => none

def ofCode? (n : Nat) : Option Char :=
  if n.isValidChar then some (Char.ofNat n) else none

/-- Reads on, given the text so far in reverse and the gap after it. A document marker at the start
of a line ends the document, so it must not stand between quotes. -/
def go (single : Bool) (done : List Char) (gap : Gap) :
    Place → List Char → Mark → Option (List Char × Cursor)
  | .quote, [], mark => some (done.reverse, ⟨[], mark⟩)
  | .quote, c :: rest, mark =>
    if c == '\'' then
      go single ('\'' :: done) .none .text rest mark.right
    else
      some (done.reverse, ⟨c :: rest, mark⟩)
  | .backslash, c :: rest, mark =>
    if isBreak c then
      go single done (.breaks Option.none []) .text rest mark.newLine
    else
      match shortEscape? c, codeLength? c with
      | some d, _ => go single (d :: done) .none .text rest mark.right
      | Option.none, some n => go single done .none (.code (n - 1) 0) rest mark.right
      | Option.none, Option.none => Option.none
  | .code left value, c :: rest, mark => do
    let value := 16 * value + (← hexValue? c)
    match left with
    | 0 => go single ((← ofCode? value) :: done) .none .text rest mark.right
    | left + 1 => go single done .none (.code left value) rest mark.right
  | .text, c :: rest, mark =>
    if isBreak c then
      go single done (gap.addBreak c) .text rest mark.newLine
    else if isBlank c then
      go single done (gap.addBlank c) .text rest mark.right
    else if mark.column == 0 && startsDocumentMarker (c :: rest) then
      Option.none
    else
      let done := gap.fold.reverse ++ done
      if single then
        if c == '\'' then
          go single done .none .quote rest mark.right
        else
          go single (c :: done) .none .text rest mark.right
      else if c == '"' then
        some (done.reverse, ⟨rest, mark.right⟩)
      else if c == '\\' then
        go single done .none .backslash rest mark.right
      else
        go single (c :: done) .none .text rest mark.right
  | _, [], _ => Option.none

/-- Reads a scalar from its opening quote on. -/
def read? (single : Bool) (c : Cursor) : Option (List Char × Cursor) :=
  go single [] .none .text c.rest.tail c.mark.right

end ScriptTree.Yaml.Quoted
