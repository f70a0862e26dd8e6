import ScriptTree.Yaml.Text

/-!
# Tags

A tag names the type of a node. It is a sequence of octets, because its escapes stand for octets; it
is written either in full between angle brackets or as a handle with a suffix, where the handle
abbreviates a longer beginning.
-/

namespace ScriptTree.Yaml

/-- The name of a node type, as octets. -/
abbrev Tag := List UInt8

namespace Tag

def ofString (s : String) : Tag :=
  s.toUTF8.toList

def ofChars (cs : List Char) : Tag :=
  ofString (String.ofList cs)

/-- What the tags of the standard types begin with. -/
def standard : String := "tag:yaml.org,2002:"

/-- The standard types that scalars are read as. -/
def bool : Tag := ofString (standard ++ "bool")
def int : Tag := ofString (standard ++ "int")
def float : Tag := ofString (standard ++ "float")
def null : Tag := ofString (standard ++ "null")

def nonSpecific : Tag := ofString "!"

/-- A name goes no further than to its first zero octet. -/
def upToZero (t : Tag) : Tag :=
  t.takeWhile (· != 0)

/-- Whether the tag is a local one, which names a type of the application. -/
def isLocal (t : Tag) : Bool :=
  t.head? == some 33

/-- Whether the tag is a local one whose name is text. The exclamation mark is no part of the name
unless it stands alone. -/
def isApplicationType (t : Tag) : Bool :=
  match t with
  | 33 :: [] => true
  | 33 :: name => (ByteArray.mk name.toArray).validateUTF8
  | _ => false

/-- A tag as it is written: a handle, which is empty for a tag in full, and what follows it. -/
structure Written where
  handle : List Char
  suffix : Tag
deriving DecidableEq, Repr

/-! ## Reading -/

/-- How many octets a character takes, by its first one. -/
def octetCount? (first : Nat) : Option Nat :=
  if first < 0x80 then some 1
  else if first / 0x20 = 6 then some 2
  else if first / 0x10 = 14 then some 3
  else if first / 0x08 = 30 then some 4
  else none

/-- The octet of an escape at the start of a text. -/
def escapedOctet? : List Char → Option Nat
  | '%' :: a :: b :: _ => do
    return 16 * (← hexValue? a) + (← hexValue? b)
  | _ => none

/-- The octets of the escapes that make up one character, given how many are to come. -/
def continuation? : Nat → List Char → Option Tag
  | 0, _ => some []
  | n + 1, text => do
    let octet ← escapedOctet? text
    if octet / 0x40 = 2 then
      return octet.toUInt8 :: (← continuation? n (text.drop 3))
    else
      none

/-- The octets of the escaped character at the start of a text. -/
def escaped? (text : List Char) : Option Tag := do
  let first ← escapedOctet? text
  let count ← octetCount? first
  return first.toUInt8 :: (← continuation? (count - 1) (text.drop 3))

/-- The characters of a tag. In full form the flow indicators other than braces are among them. -/
def isTagChar (full : Bool) (c : Char) : Bool :=
  isWordChar c || ";/?:@&=+$.%!~*'()".toList.contains c || (full && ",[]".toList.contains c)

/-- The octets of the longest run of tag characters. Escapes are whole characters of three columns
an octet. The count bounds the number of rounds. -/
def uriGo (full : Bool) : Nat → Cursor → Option (Tag × Cursor)
  | 0, c => some ([], c)
  | n + 1, c =>
    match c.rest with
    | [] => some ([], c)
    | d :: rest =>
      if d == '%' then do
        let octets ← escaped? c.rest
        let width := 3 * octets.length
        let mark := ⟨c.mark.line, c.mark.column + width⟩
        let (more, c) ← uriGo full n ⟨c.rest.drop width, mark⟩
        return (octets ++ more, c)
      else if isTagChar full d then do
        let (more, c) ← uriGo full n ⟨rest, c.mark.right⟩
        return (d.toNat.toUInt8 :: more, c)
      else
        some ([], c)

/-- The octets of the longest run of tag characters. -/
def uri? (full : Bool) (c : Cursor) : Option (Tag × Cursor) :=
  uriGo full c.rest.length c

/-- A handle: an exclamation mark, a word, and perhaps a second exclamation mark. -/
def handle? (c : Cursor) : Option (List Char × Cursor) :=
  if c.isAt '!' then
    let (word, c) := c.skip.span isWordChar
    if c.isAt '!' then some ('!' :: word ++ ['!'], c.skip) else some ('!' :: word, c)
  else
    none

/-- Whether a tag may end here. -/
def mayEnd (inFlow : Bool) (c : Cursor) : Bool :=
  endsWord c.rest || (inFlow && c.isAt ',')

/-- A tag. A handle without its second exclamation mark is the beginning of a suffix, and the lone
exclamation mark is a tag in full. Of what is written, the suffix counts up to a zero octet. -/
def read? (inFlow : Bool) (c : Cursor) : Option (Written × Cursor) := do
  let (tag, c) ← (do
    if c.skip.isAt '<' then
      let (suffix, c) ← uri? true c.skip.skip
      if suffix.isEmpty || !c.isAt '>' then none else some (⟨[], suffix.upToZero⟩, c.skip)
    else
      let (handle, c) ← handle? c
      let (suffix, c) ← uri? false c
      if handle.length > 1 && handle.getLast? == some '!' then
        if suffix.isEmpty then none else some (⟨handle, suffix.upToZero⟩, c)
      else
        let suffix := (ofChars (handle.drop 1) ++ suffix).upToZero
        some (if suffix.isEmpty then ⟨[], nonSpecific⟩ else ⟨['!'], suffix⟩, c) :
    Option (Written × Cursor))
  if mayEnd inFlow c then some (tag, c) else none

end Tag

end ScriptTree.Yaml
