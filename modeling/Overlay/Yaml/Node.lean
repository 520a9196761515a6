import Overlay.Yaml.Scalar
import Overlay.Yaml.Token

/-!
# The nodes of a document

Tokens make up a tree of scalars, sequences and mappings.  A node may be given a name, and the name
may stand for the node from then on.

## Main definitions
- `Node`: the trees
- `Node.ofTokens`: the tree of a document, if it is not empty
-/

namespace Overlay.Yaml

/-! ## Section 1: Trees -/

/-- A tree of scalars, sequences and mappings. -/
inductive Node where
  | scalar (tag : Tag) (text : List Char)
  | sequence (tag : Tag) (items : List Node)
  | mapping (tag : Tag) (pairs : List (Node × Node))
  deriving Inhabited

/-- Where one stands among the tokens of a document. -/
structure Reader where
  /-- The tokens that are left. -/
  rest : List Token
  /-- The names given so far, some of them to nodes that are not complete. -/
  names : List (List Char)
  /-- The complete nodes with names. -/
  named : List (List Char × Node)
  /-- What the handles of tags stand for. -/
  handles : List (List Char × List Char)
  deriving Inhabited

/-- Steps through tokens. -/
abbrev Read := StateT Reader Result

/-- The next token. -/
def peekToken : Read Token := do
  return (← get).rest.headD .streamEnd

/-- Steps over a token. -/
def skipToken : Read Unit :=
  modify fun r => { r with rest := r.rest.tail }

/-- Steps over a token that has to come next. -/
def expectToken (t : Token) : Read Unit := do
  if (← peekToken) = t then skipToken else throw .malformed

/-- Whether one of some tokens comes next. -/
def isNext (ts : List Token) : Read Bool := do
  return ts.contains (← peekToken)

/-! ## Section 2: Names and kinds -/

/-- What the tags of the common kinds start with. -/
def commonTags : List Char := "tag:yaml.org,2002:".toList

/-- The handles that need no directive. -/
def defaultHandles : List (List Char × List Char) :=
  [(['!'], ['!']), (['!', '!'], commonTags)]

/-- A tag as it is written in full; the lone mark stands for no kind at all. -/
def fullTag (handle : Option (List Char)) (suffix : List Char) : Read (List Char) := do
  match handle with
  | none => return suffix
  | some h => match (← get).handles.lookup h with
    | some start => return start ++ suffix
    | none => throw .malformed

/-- The kind that a full tag names. -/
def kindOfTag (s : List Char) : Tag :=
  if commonTags.isPrefixOf s then Tag.ofName (s.drop commonTags.length) else .unknown

/-- The name and the full tag in front of a node, in either order. -/
def readProperties : Read (Option (List Char) × Option (List Char)) := do
  let anchor : Read (Option (List Char)) := do
    match ← peekToken with
    | .anchor name => skipToken; return some name
    | _ => return none
  let tag : Read (Option (List Char)) := do
    match ← peekToken with
    | .tag handle suffix => skipToken; return some (← fullTag handle suffix)
    | _ => return none
  match ← anchor with
  | some a => return (some a, ← tag)
  | none => match ← tag with
    | some t => return (← anchor, some t)
    | none => return (none, none)

/-- The kind of a scalar: told by its tag, or by its looks where it is plain. -/
def scalarTag (tag : Option (List Char)) (text : List Char) (plain : Bool) : Tag :=
  match tag with
  | some t => if t = ['!'] then Tag.ofPlain text else kindOfTag t
  | none => if plain then Tag.ofPlain text else .str

/-- The kind of a collection: told by its tag, or the common one. -/
def collectionTag (tag : Option (List Char)) (common : Tag) : Tag :=
  match tag with
  | some t => if t = ['!'] then common else kindOfTag t
  | none => common

/-- The node of nothing at all. -/
def emptyNode : Node := .scalar .null []

/-! ## Section 3: Nodes from tokens -/

/-- The tokens that end a value in a block mapping. -/
def blockStops : List Token := [.key, .value, .blockEnd]

mutual

/-- A node; inside of flow collections only flow collections may begin. -/
def readNode (block indentless : Bool) : Nat → Read Node
  | 0 => throw .malformed
  | fuel + 1 => do
    match ← peekToken with
    | .alias name => do
      skipToken
      match (← get).named.lookup name with
      | some n => return n
      | none => throw .malformed
    | _ => do
      -- a name may be given once, and stands for its node only when that is complete
      let (name, tag) ← readProperties
      match name with
      | some a =>
        if (← get).names.contains a then throw .malformed
        modify fun r => { r with names := a :: r.names }
      | none => pure ()
      let node ← readContent block indentless tag (name.isSome || tag.isSome) fuel
      match name with
      | some a => modify fun r => { r with named := (a, node) :: r.named }
      | none => pure ()
      return node

/-- What stands behind the name and tag of a node. -/
def readContent (block indentless : Bool) (tag : Option (List Char)) (mayBeEmpty : Bool) :
    Nat → Read Node
  | 0 => throw .malformed
  | fuel + 1 => do
    match ← peekToken with
    -- a sequence that is a value may start at the column of its key
    | .blockEntry =>
      if indentless then
        return .sequence (collectionTag tag .seq) (← readIndentless fuel)
      else if mayBeEmpty then return .scalar (scalarTag tag [] true) []
      else throw .malformed
    | .scalar text plain =>
      skipToken
      return .scalar (scalarTag tag text plain) text
    | .flowSequenceStart =>
      skipToken
      return .sequence (collectionTag tag .seq) (← readFlowItems true fuel)
    | .flowMappingStart =>
      skipToken
      return .mapping (collectionTag tag .map) (← readFlowPairs true fuel)
    | t =>
      if block && t = .blockSequenceStart then
        skipToken
        return .sequence (collectionTag tag .seq) (← readBlockItems fuel)
      else if block && t = .blockMappingStart then
        skipToken
        return .mapping (collectionTag tag .map) (← readBlockPairs fuel)
      else if mayBeEmpty then return .scalar (scalarTag tag [] true) []
      else throw .malformed

/-- A node, or the empty one before some tokens. -/
def readUnless (stops : List Token) (block indentless : Bool) : Nat → Read Node
  | 0 => throw .malformed
  | fuel + 1 => do
    if ← isNext stops then return emptyNode else readNode block indentless fuel

/-- The entries of a block sequence. -/
def readBlockItems : Nat → Read (List Node)
  | 0 => throw .malformed
  | fuel + 1 => do
    if ← isNext [.blockEntry] then
      skipToken
      let node ← readUnless [.blockEntry, .blockEnd] true false fuel
      return node :: (← readBlockItems fuel)
    else
      expectToken .blockEnd
      return []

/-- The entries of a sequence that is not indented deeper than the mapping around it. -/
def readIndentless : Nat → Read (List Node)
  | 0 => throw .malformed
  | fuel + 1 => do
    if ← isNext [.blockEntry] then
      skipToken
      let node ← readUnless (.blockEntry :: blockStops) true false fuel
      return node :: (← readIndentless fuel)
    else return []

/-- The pairs of a block mapping. -/
def readBlockPairs : Nat → Read (List (Node × Node))
  | 0 => throw .malformed
  | fuel + 1 => do
    if ← isNext [.key] then
      skipToken
      let key ← readUnless blockStops true true fuel
      let value ←
        if ← isNext [.value] then do
          skipToken
          readUnless blockStops true true fuel
        else pure emptyNode
      return (key, value) :: (← readBlockPairs fuel)
    else
      expectToken .blockEnd
      return []

/-- A value in a flow collection that ends with a token. -/
def readFlowValue (stop : Token) : Nat → Read Node
  | 0 => throw .malformed
  | fuel + 1 => do
    if ← isNext [.value] then
      skipToken
      readUnless [.flowEntry, stop] false false fuel
    else return emptyNode

/-- The entries of a flow sequence. -/
def readFlowItems (first : Bool) : Nat → Read (List Node)
  | 0 => throw .malformed
  | fuel + 1 => do
    if ← isNext [.flowSequenceEnd] then
      skipToken
      return []
    if !first then expectToken .flowEntry
    if ← isNext [.key] then
      skipToken
      let key ← readUnless [.value, .flowEntry, .flowSequenceEnd] false false fuel
      let value ← readFlowValue .flowSequenceEnd fuel
      -- a single pair in a sequence is a mapping of its own
      return .mapping .map [(key, value)] :: (← readFlowItems false fuel)
    -- a comma may stand behind the last entry
    else if ← isNext [.flowSequenceEnd] then
      skipToken
      return []
    else
      let node ← readNode false false fuel
      return node :: (← readFlowItems false fuel)

/-- The pairs of a flow mapping. -/
def readFlowPairs (first : Bool) : Nat → Read (List (Node × Node))
  | 0 => throw .malformed
  | fuel + 1 => do
    if ← isNext [.flowMappingEnd] then
      skipToken
      return []
    if !first then expectToken .flowEntry
    if ← isNext [.key] then
      skipToken
      let key ← readUnless [.value, .flowEntry, .flowMappingEnd] false false fuel
      let value ← readFlowValue .flowMappingEnd fuel
      return (key, value) :: (← readFlowPairs false fuel)
    else if ← isNext [.flowMappingEnd] then
      skipToken
      return []
    else
      let key ← readNode false false fuel
      return (key, emptyNode) :: (← readFlowPairs false fuel)

end

/-! ## Section 4: Documents -/

/-- The words of a directive. -/
def wordsOf (s : List Char) : List (List Char) :=
  ((Text.pieces ' ' s).takeWhile fun w => w.head? ≠ some '#').filter fun w => !w.isEmpty

/-- Whether a text is a version of the first series. -/
def isVersion (s : List Char) : Bool :=
  match Text.pieces '.' s with
  | [a, b] => a.all Char.isDigit && !a.isEmpty && b.all Char.isDigit && !b.isEmpty
      && Number.ofNumeral a = 1
  | _ => false

/-- Takes the directives in front of a document into account. -/
def readDirectives (versionSeen : Bool) : Nat → Read Unit
  | 0 => throw .malformed
  | fuel + 1 => do
    match ← peekToken with
    | .directive name arguments =>
      skipToken
      match String.ofList name, wordsOf arguments with
      | "YAML", [v] =>
        if versionSeen || !isVersion v then throw .malformed
        readDirectives true fuel
      | "YAML", _ => throw .malformed
      | "TAG", [handle, start] =>
        -- only the handles that are always there may be given a new meaning
        if ((← get).handles.lookup handle).isSome && !defaultHandles.any (·.1 = handle) then
          throw .malformed
        modify fun r => { r with handles := (handle, start) :: r.handles }
        readDirectives versionSeen fuel
      | "TAG", _ => throw .malformed
      | _, _ => readDirectives versionSeen fuel
    | _ => return

/-- The tokens behind which nothing of a document is left. -/
def documentStops : List Token := [.documentStart, .documentEnd, .streamEnd]

/-- Steps over the marks that end documents. -/
def skipEnds : Nat → Read Unit
  | 0 => pure ()
  | fuel + 1 => do
    if ← isNext [.documentEnd] then
      skipToken
      skipEnds fuel

/-- Whether a directive comes next. -/
def atDirective : Read Bool := do
  match ← peekToken with
  | .directive .. => return true
  | _ => return false

/-- The tree of the only document. -/
def readDocument (fuel : Nat) : Read (Option Node) := do
  if ← isNext [.streamEnd] then return none
  let explicit := (← atDirective) || (← isNext [.documentStart])
  if explicit then
    readDirectives false fuel
    expectToken .documentStart
  let node ←
    if explicit && ((← atDirective) || (← isNext documentStops)) then pure emptyNode
    else readNode true false fuel
  skipEnds fuel
  expectToken .streamEnd
  return some node

/-- The tree of the only document among tokens; none where there is nothing at all. -/
def Node.ofTokens (ts : List Token) : Result (Option Node) := do
  let (node, _) ← (readDocument (4 * ts.length + 8)).run ⟨ts, [], [], defaultHandles⟩
  return node

end Overlay.Yaml
