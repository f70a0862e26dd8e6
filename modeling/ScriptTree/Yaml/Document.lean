import ScriptTree.Yaml.Lexer
import ScriptTree.Yaml.Node

/-!
# From tokens to a document

A document is its directives and one node, and a text is well formed if it holds exactly one
document. The reader descends from node to node. Nodes may be left out in many places, where an
empty scalar takes their place; the mark of the empty scalar is where the missing node would start.
-/

namespace ScriptTree.Yaml

namespace Document

/-! ## The reader -/

/-- What is left of the tokens, and the anchors so far by name. -/
structure Progress where
  tokens : List Token
  anchors : List (String × Nat)

/-- A reader of part of a document. -/
abbrev Reader := StateT Progress Option

namespace Reader

def peek : Reader Token := fun p =>
  p.tokens.head?.map (·, p)

def advance : Reader Unit :=
  modify fun p => { p with tokens := p.tokens.tail }

def next : Reader Token := do
  let token ← peek
  advance
  return token

def anchor (name : String) : Reader Nat := fun p =>
  (p.anchors.lookup name).map (·, p)

/-- Gives a number to a new anchor. A name can be given again; it counts once all the same. -/
def newAnchor (name : String) : Reader Nat := fun p =>
  let number := p.anchors.length
  some (number, { p with anchors := (name, number) :: p.anchors.filter (·.1 != name) })

/-- Reads a node unless the next token ends the place for one. -/
def nodeUnless (isEnd : Token.Kind → Bool) (mark : Mark) (node : Reader Node) : Reader Node := do
  if isEnd (← peek).kind then return .empty mark else node

end Reader

open Reader

/-! ## Directives -/

/-- The handles of a document with the beginnings of tags that they abbreviate. -/
abbrev Handles := List (List Char × Tag)

/-- The handles that need no directive. -/
def Handles.default : Handles :=
  [(['!'], Tag.nonSpecific), (['!', '!'], Tag.ofString Tag.standard)]

def Handles.tag? (handles : Handles) (w : Tag.Written) : Option Tag :=
  if w.handle.isEmpty then some w.suffix else (handles.lookup w.handle).map (· ++ w.suffix)

/-- The directives at the head of a list of tokens, and the tokens behind them. At most one version
and one meaning for each handle may be given. -/
def directives? : Bool → Handles → List Token → Option (Handles × List Token)
  | hasVersion, handles, token :: tokens =>
    match token.kind with
    | .version major minor =>
      if hasVersion || major != 1 || (minor != 1 && minor != 2) then none
      else directives? true handles tokens
    | .abbreviation handle meaning =>
      if (handles.lookup handle).isSome then none
      else directives? hasVersion (handles ++ [(handle, meaning)]) tokens
    | _ => some (handles, token :: tokens)
  | _, handles, [] => some (handles, [])

/-! ## Nodes -/

/-- What ends the place for an item of an indented sequence. -/
def endsItem : Token.Kind → Bool
  | .blockEntry | .blockEnd => true
  | _ => false

/-- What ends the place for an item of a sequence that is not indented. -/
def endsIndentlessItem : Token.Kind → Bool
  | .blockEntry | .key | .value | .blockEnd => true
  | _ => false

/-- What ends the place for a key or value of an indented mapping. -/
def endsPart : Token.Kind → Bool
  | .key | .value | .blockEnd => true
  | _ => false

def endsFlowValue (closing : Token.Kind) (kind : Token.Kind) : Bool :=
  kind == .flowEntry || kind == closing

/-- What ends the place for a key within brackets. -/
def endsFlowKey (closing : Token.Kind) (kind : Token.Kind) : Bool :=
  kind == .value || endsFlowValue closing kind

/-- An anchor and a tag, in either order. -/
def properties (handles : Handles) : Reader Properties := do
  let anchor? : Reader (Option String) := do
    match (← peek).kind with
    | .anchor name => advance; return some name
    | _ => return none
  let tag? : Reader (Option Tag.Written) := do
    match (← peek).kind with
    | .tag written => advance; return some written
    | _ => return none
  let first ← anchor?
  let written ← tag?
  let name ← if first.isSome then pure first else anchor?
  let tag ← written.mapM fun w => (handles.tag? w : Option Tag)
  let anchor ← name.mapM newAnchor
  return ⟨anchor, tag⟩

mutual

/-- A node. Collections that live by indentation are read only where `block` allows them, and
`indentless` allows a sequence whose hyphens stand where the node starts. -/
def node (handles : Handles) (block indentless : Bool) : Nat → Reader Node
  | 0 => failure
  | fuel + 1 => do
    let mark := (← peek).mark
    match (← peek).kind with
    | .reference name =>
      advance
      return .reference mark (← anchor name)
    | _ =>
      let p ← properties handles
      match (← peek).kind with
      | .scalar style text =>
        advance
        return .scalar mark p style text
      | .flowSequenceStart =>
        advance
        return .sequence mark p (← flowSequence handles true fuel)
      | .flowMappingStart =>
        advance
        return .mapping mark p (← flowMapping handles true fuel)
      | kind =>
        if indentless && kind == .blockEntry then
          return .sequence mark p (← indentlessSequence handles fuel)
        else if block && kind == .blockSequenceStart then
          advance
          return .sequence mark p (← blockSequence handles fuel)
        else if block && kind == .blockMappingStart then
          advance
          return .mapping mark p (← blockMapping handles fuel)
        else if p = .none then
          failure
        else
          return .scalar mark p .plain ""

/-- The items of an indented sequence, and its end. -/
def blockSequence (handles : Handles) : Nat → Reader (List Node)
  | 0 => failure
  | fuel + 1 => do
    let token ← next
    match token.kind with
    | .blockEntry =>
      let item ← nodeUnless endsItem token.mark.right (node handles true false fuel)
      return item :: (← blockSequence handles fuel)
    | .blockEnd => return []
    | _ => failure

/-- The items of a sequence that is not indented. -/
def indentlessSequence (handles : Handles) : Nat → Reader (List Node)
  | 0 => failure
  | fuel + 1 => do
    let token ← peek
    match token.kind with
    | .blockEntry =>
      advance
      let item ← nodeUnless endsIndentlessItem token.mark.right (node handles true false fuel)
      return item :: (← indentlessSequence handles fuel)
    | _ => return []

/-- The entries of an indented mapping, and its end. -/
def blockMapping (handles : Handles) : Nat → Reader (List (Node × Node))
  | 0 => failure
  | fuel + 1 => do
    let token ← next
    match token.kind with
    | .key =>
      let key ← nodeUnless endsPart token.mark.right (node handles true true fuel)
      let colon ← peek
      let value ←
        if colon.kind == .value then do
          advance
          nodeUnless endsPart colon.mark.right (node handles true true fuel)
        else
          pure (.empty colon.mark)
      return (key, value) :: (← blockMapping handles fuel)
    | .blockEnd => return []
    | _ => failure

/-- The value of an entry within brackets, with its colon. -/
def flowValue (handles : Handles) (closing : Token.Kind) : Nat → Reader Node
  | 0 => failure
  | fuel + 1 => do
    if (← peek).kind == .value then
      advance
      nodeUnless (endsFlowValue closing) (← peek).mark (node handles false false fuel)
    else
      return .empty (← peek).mark

/-- The items of a sequence between brackets, and its end. An item may be an entry, which is a
mapping of its own. Where the key of such an entry is missing, the token in its place is passed
over. -/
def flowSequence (handles : Handles) (isFirst : Bool) : Nat → Reader (List Node)
  | 0 => failure
  | fuel + 1 => do
    if (← peek).kind == .flowSequenceEnd then
      advance
      return []
    else
      if !isFirst then
        if (← next).kind != .flowEntry then failure
      let token ← peek
      match token.kind with
      | .flowSequenceEnd =>
        advance
        return []
      | .key =>
        advance
        let first ← peek
        let key ←
          if endsFlowKey .flowSequenceEnd first.kind then do
            advance
            pure (.empty first.mark.right)
          else
            node handles false false fuel
        let value ← flowValue handles .flowSequenceEnd fuel
        let item := Node.mapping token.mark .none [(key, value)]
        return item :: (← flowSequence handles false fuel)
      | _ =>
        let item ← node handles false false fuel
        return item :: (← flowSequence handles false fuel)

/-- The entries of a mapping between braces, and its end. A node alone is a key without value. -/
def flowMapping (handles : Handles) (isFirst : Bool) : Nat → Reader (List (Node × Node))
  | 0 => failure
  | fuel + 1 => do
    if (← peek).kind == .flowMappingEnd then
      advance
      return []
    else
      if !isFirst then
        if (← next).kind != .flowEntry then failure
      match (← peek).kind with
      | .flowMappingEnd =>
        advance
        return []
      | .key =>
        advance
        let key ← nodeUnless (endsFlowKey .flowMappingEnd) (← peek).mark
          (node handles false false fuel)
        let value ← flowValue handles .flowMappingEnd fuel
        return (key, value) :: (← flowMapping handles false fuel)
      | _ =>
        let key ← node handles false false fuel
        let value := Node.empty (← peek).mark
        return (key, value) :: (← flowMapping handles false fuel)

end

/-! ## Documents -/

/-- What ends the place for the node of a document behind its first marker. -/
def endsContent : Token.Kind → Bool
  | .version _ _ | .abbreviation _ _ | .documentStart | .documentEnd | .textEnd => true
  | _ => false

/-- The node of a document. Without marker and directives it must not be left out, unless there is
no token at all. -/
def content (fuel : Nat) : Reader Node := do
  let first ← peek
  match first.kind with
  | .textEnd => return .empty first.mark
  | .version _ _ | .abbreviation _ _ | .documentStart =>
    let p ← get
    let (handles, tokens) ← (directives? false [] p.tokens : Option _)
    set { p with tokens }
    if (← next).kind == .documentStart then
      nodeUnless endsContent (← peek).mark (node (handles ++ .default) true false fuel)
    else
      failure
  | _ => node .default true false fuel

/-- Whether nothing but the end of the document is left. -/
def isOver (tokens : List Token) : Bool :=
  match tokens.dropWhile (·.kind == .documentEnd) with
  | [token] => token.kind == .textEnd
  | _ => false

/-- The document of a list of tokens. A level of the descent takes a token, or else the next one
does, so twice as many levels as tokens suffice. -/
def ofTokens? (tokens : List Token) : Option Document := do
  let (root, p) ← (content (2 * tokens.length + 2)).run ⟨tokens, []⟩
  if isOver p.tokens then some ⟨root⟩ else none

/-- The document of a text, or nothing where the text is no single document. -/
def ofText? (text : String) : Option Document := do
  ofTokens? (← Token.ofText? text)

end Document

end ScriptTree.Yaml
