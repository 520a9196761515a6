import Overlay.Act
import Overlay.Number.Literal

/-!
# The tokens of a document

A document is cut into tokens: marks for the beginnings and ends of collections, for entries, keys
and values, and the scalars themselves.  Block collections are told by indentation; a key is known
as one only when the colon behind it is met, so its mark is put in front of it later.

## Main definitions
- `Token`: the tokens
- `Lexer`: where one stands in a document
- `Token.ofText`: the tokens of a document
-/

namespace Overlay.Yaml

/-! ## Section 1: Tokens -/

/-- A token of a document. -/
inductive Token where
  | directive (name : List Char) (arguments : List Char)
  | documentStart
  | documentEnd
  | streamEnd
  | blockSequenceStart
  | blockMappingStart
  | blockEnd
  | flowSequenceStart
  | flowSequenceEnd
  | flowMappingStart
  | flowMappingEnd
  | blockEntry
  | flowEntry
  | key
  | value
  | alias (name : List Char)
  | anchor (name : List Char)
  | tag (handle : Option (List Char)) (suffix : List Char)
  | scalar (text : List Char) (plain : Bool)
  deriving DecidableEq, Repr, Inhabited

/-- A place where a key may have begun. -/
structure KeyPlace where
  /-- How many tokens stand before it. -/
  tokens : Nat
  /-- Whether it has to be a key. -/
  required : Bool
  /-- The characters before it. -/
  index : Nat
  /-- The lines before it. -/
  line : Nat
  /-- The characters before it on its line. -/
  column : Nat
  deriving DecidableEq, Repr, Inhabited

/-- Where one stands in a document. -/
structure Lexer where
  /-- What is left of the document. -/
  rest : List Char
  /-- The characters before this place. -/
  index : Nat
  /-- The lines before this place. -/
  line : Nat
  /-- The characters before this place on its line. -/
  column : Nat
  /-- The indentation of the innermost block collection; minus one outside of all. -/
  indent : Int
  /-- The indentations around it. -/
  indents : List Int
  /-- How many flow collections are open. -/
  flow : Nat
  /-- Whether a key may begin here. -/
  keyAllowed : Bool
  /-- The places where keys may have begun, by the number of open flow collections. -/
  keys : List (Nat × KeyPlace)
  /-- The tokens so far. -/
  tokens : Array Token
  deriving Inhabited

/-- Steps through a document. -/
abbrev Lex := StateT Lexer Result

/-- The document is not well formed. -/
def malformed {α : Type} : Lex α :=
  throw .malformed

/-! ## Section 2: Characters -/

/-- The character that stands for the end of the document. -/
def endMark : Char := '\x00'

/-- Whether a character ends a line. -/
def isBreak (c : Char) : Bool :=
  c = '\n' || c = '\r' || c = '\x85' || c = '\u2028' || c = '\u2029'

/-- Whether a character ends a line or the document. -/
def isBreakOrEnd (c : Char) : Bool :=
  isBreak c || c = endMark

/-- Whether a character ends a line or the document, or is a space. -/
def isSpaceOrEnd (c : Char) : Bool :=
  isBreakOrEnd c || c = ' '

/-- Whether a character ends a word. -/
def isBlankOrEnd (c : Char) : Bool :=
  isSpaceOrEnd c || c = '\t'

/-- Whether a document may hold a character. -/
def isAllowed (c : Char) : Bool :=
  let n := c.toNat
  n = 0x09 || n = 0x0A || n = 0x0D || (0x20 ≤ n && n ≤ 0x7E) || n = 0x85
    || (0xA0 ≤ n && n ≤ 0xD7FF) || (0xE000 ≤ n && n ≤ 0xFFFD) || 0x10000 ≤ n

/-- The character some way ahead. -/
def peekAt (n : Nat) : Lex Char := do
  return (← get).rest.getD n endMark

/-- The next character. -/
def peek : Lex Char := do
  return (← get).rest.headD endMark

/-- The place behind the next character. -/
def Lexer.advance (l : Lexer) : Lexer :=
  match l.rest with
  | [] => l
  | c :: r =>
    -- of a carriage return and a line feed only the second one ends the line
    let newLine := isBreak c && !(c = '\r' && r.head? = some '\n')
    { l with
      rest := r
      index := l.index + 1
      line := if newLine then l.line + 1 else l.line
      column := if newLine then 0 else if c = '\uFEFF' then l.column else l.column + 1 }

/-- Steps over some characters. -/
def forward (n : Nat) : Lex Unit :=
  modify fun l => Nat.repeat Lexer.advance n l

/-- Steps over the characters of a class. -/
def takeRun (p : Char → Bool) : Lex (List Char) := do
  let run := (← get).rest.takeWhile p
  forward run.length
  return run

/-- Steps over the end of a line and tells what it counts as; nothing where there is none. -/
def takeBreak : Lex (List Char) := do
  let c ← peek
  if c = '\r' then
    if (← peekAt 1) = '\n' then forward 2 else forward 1
    return ['\n']
  else if c = '\n' || c = '\x85' then
    forward 1
    return ['\n']
  else if isBreak c then
    forward 1
    return [c]
  else return []

/-- Whether three characters at the start of a line divide documents. -/
def atDivider (mark : Char) : Lex Bool := do
  let l ← get
  return l.rest.take 3 = [mark, mark, mark] && isBlankOrEnd (l.rest.getD 3 endMark)

/-- Whether any divider of documents comes next. -/
def atAnyDivider : Lex Bool := do
  return (← atDivider '-') || (← atDivider '.')

/-- The characters that are left, as a measure of work to do. -/
def fuelLeft : Lex Nat := do
  return (← get).rest.length + 1

/-! ## Section 3: Keys and indentation -/

/-- Adds a token. -/
def push (t : Token) : Lex Unit :=
  modify fun l => { l with tokens := l.tokens.push t }

/-- Allows or forbids a key to begin here. -/
def allowKey (b : Bool) : Lex Unit :=
  modify fun l => { l with keyAllowed := b }

/-- Forgets the key that may have begun among the open flow collections. -/
def dropKey : Lex Unit := do
  let l ← get
  match l.keys.lookup l.flow with
  -- a key that had to come would now never be completed
  | some k => if k.required then malformed
  | none => pure ()
  set { l with keys := l.keys.filter fun e => e.1 ≠ l.flow }

/-- Remembers that a key may begin here. -/
def saveKey : Lex Unit := do
  let l ← get
  if l.keyAllowed then
    dropKey
    -- at the indentation of the block around it only a key can begin
    let place : KeyPlace :=
      ⟨l.tokens.size, l.flow = 0 && l.indent = l.column, l.index, l.line, l.column⟩
    modify fun l => { l with keys := (l.flow, place) :: l.keys }

/-- The longest key. -/
def maxKeyLength : Nat := 1024

/-- Forgets the keys that cannot be completed any more. -/
def dropStaleKeys : Lex Unit := do
  let l ← get
  -- keys end on the line that they begin on
  let stale (k : KeyPlace) : Bool := k.line ≠ l.line || maxKeyLength < l.index - k.index
  if l.keys.any fun e => stale e.2 && e.2.required then malformed
  set { l with keys := l.keys.filter fun e => !stale e.2 }

/-- Ends the block collections that are indented deeper than a column. -/
def unwind (column : Int) : Lex Unit := do
  let l ← get
  if l.flow = 0 then
    let deeper := (l.indent :: l.indents).takeWhile fun i => column < i
    match (l.indent :: l.indents).drop deeper.length with
    | i :: r =>
      set { l with
        indent := i
        indents := r
        tokens := deeper.foldl (fun ts _ => ts.push .blockEnd) l.tokens }
    | [] => malformed

/-- Begins a block collection at a column, unless it goes on with one; tells whether it began. -/
def indentTo (column : Nat) : Lex Bool := do
  let l ← get
  if l.indent < column then
    set { l with indent := (column : Int), indents := l.indent :: l.indents }
    return true
  else return false

/-- Steps over spaces, comments and the ends of lines. -/
def skipBlanks : Nat → Lex Unit
  | 0 => pure ()
  | fuel + 1 => do
    let _ ← takeRun (· = ' ')
    if (← peek) = '#' then
      let _ ← takeRun fun c => !isBreak c
    if isBreak (← peek) then
      let _ ← takeBreak
      -- a new line may begin with a key, but lines mean nothing inside of flow collections
      if (← get).flow = 0 then allowKey true
      skipBlanks fuel

/-! ## Section 4: Names, tags and directives -/

/-- Whether a character may be part of a name. -/
def isNameChar (c : Char) : Bool :=
  c.isAlphanum || c = '-' || c = '_'

/-- The name behind the mark of an anchor or an alias. -/
def takeName : Lex (List Char) := do
  forward 1
  let name ← takeRun isNameChar
  let c ← peek
  let ends := isBlankOrEnd c || ['?', ':', ',', ']', '}', '%', '@', '\x60'].contains c
  if name.isEmpty || !ends then malformed
  return name

/-- Whether a character may be part of a tag. -/
def isTagChar (c : Char) : Bool :=
  c.isAlphanum || "-;/?:@&=+$,_.!~*'()[]%".toList.contains c

/-- The characters of a tag, where there has to be one. -/
def takeTagText : Lex (List Char) := do
  let s ← takeRun isTagChar
  if s.isEmpty then malformed
  return s

/-- A tag. -/
def takeTag : Lex Token := do
  let next ← peekAt 1
  -- a tag is written in full, or is the lone mark, or has a handle in front
  let token ←
    if next = '<' then do
      forward 2
      let s ← takeTagText
      if (← peek) ≠ '>' then malformed
      forward 1
      pure (Token.tag none s)
    else if isBlankOrEnd next then do
      forward 1
      pure (Token.tag none ['!'])
    else do
      let word := ((← get).rest.drop 1).takeWhile fun c => !isSpaceOrEnd c
      if word.contains '!' then
        forward 1
        let name ← takeRun isNameChar
        if (← peek) ≠ '!' then malformed
        forward 1
        pure (Token.tag (some ('!' :: name ++ ['!'])) (← takeTagText))
      else
        forward 1
        pure (Token.tag (some ['!']) (← takeTagText))
  if !isSpaceOrEnd (← peek) then malformed
  return token

/-- A directive: its name, and what follows it on its line. -/
def takeDirective : Lex Token := do
  forward 1
  let name ← takeRun isNameChar
  if name.isEmpty || !isSpaceOrEnd (← peek) then malformed
  let arguments ← takeRun fun c => !isBreak c
  let _ ← takeBreak
  return .directive name arguments

/-! ## Section 5: Scalars over several lines -/

/-- The empty lines in front of the next one, whose indentation is skipped up to a width. -/
def takeBlockBreaks (indent : Nat) : Nat → Lex (List Char)
  | 0 => return []
  | fuel + 1 => do
    let l ← get
    let spaces := (l.rest.takeWhile (· = ' ')).length
    forward (min spaces (indent - l.column))
    if isBreak (← peek) then
      let b ← takeBreak
      return b ++ (← takeBlockBreaks indent fuel)
    else return []

/-- The empty lines in front of the first one that is not, and the deepest indentation among
them. -/
def takeBlockIndent (deepest : Nat) : Nat → Lex (List Char × Nat)
  | 0 => return ([], deepest)
  | fuel + 1 => do
    let c ← peek
    if c = ' ' then
      forward 1
      takeBlockIndent (max deepest (← get).column) fuel
    else if isBreak c then
      let b ← takeBreak
      let r ← takeBlockIndent deepest fuel
      return (b ++ r.1, r.2)
    else return ([], deepest)

/-- What follows the mark of a block scalar: whether its last line ends are kept or dropped, and
its indentation. -/
def takeBlockHeader : Lex (Option Bool × Option Nat) := do
  let sign (c : Char) : Option Bool :=
    if c = '+' then some true else if c = '-' then some false else none
  let digit (c : Char) : Option Nat := if c.isDigit then some (c.toNat - 0x30) else none
  let c ← peek
  -- the sign and the digit come in either order
  let (keep, width) ← match sign c, digit c with
    | some k, _ => do
      forward 1
      let w := digit (← peek)
      if w.isSome then forward 1
      pure (some k, w)
    | none, some w => do
      forward 1
      let k := sign (← peek)
      if k.isSome then forward 1
      pure (k, some w)
    | none, none => pure (none, none)
  if width = some 0 || !isSpaceOrEnd (← peek) then malformed
  let _ ← takeRun (· = ' ')
  if (← peek) = '#' then
    let _ ← takeRun fun c => !isBreak c
  if !isBreakOrEnd (← peek) then malformed
  let _ ← takeBreak
  return (keep, width)

/-- Whether a character lets its line stand on its own in a folded scalar. -/
def isIndenting (c : Char) : Bool :=
  c = ' ' || c = '\t'

/-- The lines of a block scalar: its text, the end of its last line, and the empty lines behind
it. -/
def takeBlockLines (folded : Bool) (indent : Nat) (breaks : List Char) :
    Nat → Lex (List Char × List Char × List Char)
  | 0 => return ([], [], breaks)
  | fuel + 1 => do
    if (← get).column ≠ indent || (← peek) = endMark then return ([], [], breaks)
    -- lines that are indented deeper are not folded into their neighbours
    let flush := !isIndenting (← peek)
    let body ← takeRun fun c => !isBreak c
    let lineEnd ← takeBreak
    let next ← takeBlockBreaks indent (← fuelLeft)
    if (← get).column = indent && (← peek) ≠ endMark then
      let joint :=
        if folded && lineEnd = ['\n'] && flush && !isIndenting (← peek) then
          (if next.isEmpty then [' '] else [])
        else lineEnd
      let (more, lastEnd, trailing) ← takeBlockLines folded indent next fuel
      return (breaks ++ body ++ joint ++ more, lastEnd, trailing)
    else return (breaks ++ body, lineEnd, next)

/-- A block scalar. -/
def takeBlockScalar (folded : Bool) : Lex Token := do
  forward 1
  let (keep, width) ← takeBlockHeader
  -- without a width the first line that is not empty tells the indentation
  let least := ((← get).indent + 1).toNat.max 1
  let (breaks, indent) ← match width with
    | none => do
      let (breaks, deepest) ← takeBlockIndent 0 (← fuelLeft)
      pure (breaks, max least deepest)
    | some w => do
      let indent := least + w - 1
      pure (← takeBlockBreaks indent (← fuelLeft), indent)
  let (text, lastEnd, trailing) ← takeBlockLines folded indent breaks (← fuelLeft)
  let ending := match keep with
    | some false => []
    | some true => lastEnd ++ trailing
    | none => lastEnd
  return .scalar (text ++ ending) false

/-! ## Section 6: Quoted scalars -/

/-- The characters that single letters behind a backslash stand for. -/
def escapes : List (Char × Char) :=
  [('0', '\x00'), ('a', '\x07'), ('b', '\x08'), ('t', '\t'), ('\t', '\t'), ('n', '\n'),
    ('v', '\x0b'), ('f', '\x0c'), ('r', '\r'), ('e', '\x1b'), (' ', ' '), ('"', '"'),
    ('\\', '\\'), ('/', '/'), ('N', '\x85'), ('_', '\xa0'), ('L', '\u2028'), ('P', '\u2029')]

/-- The number of hexadecimal digits behind a letter. -/
def escapeWidths : List (Char × Nat) := [('x', 2), ('u', 4), ('U', 8)]

/-- Whether a character is a hexadecimal digit. -/
def isHexDigit (c : Char) : Bool :=
  c.isDigit || ('a' ≤ c && c ≤ 'f') || ('A' ≤ c && c ≤ 'F')

/-- The empty lines inside of a quoted scalar; documents cannot be divided there. -/
def takeQuotedBreaks : Nat → Lex (List Char)
  | 0 => return []
  | fuel + 1 => do
    if ← atAnyDivider then malformed
    let _ ← takeRun isIndenting
    if isBreak (← peek) then
      let b ← takeBreak
      return b ++ (← takeQuotedBreaks fuel)
    else return []

/-- The character that an escape stands for; the end of a line stands for nothing. -/
def takeEscape : Lex (List Char) := do
  forward 1
  let c ← peek
  match escapes.lookup c, escapeWidths.lookup c with
  | some d, _ => do
    forward 1
    return [d]
  | none, some width => do
    forward 1
    let digits := (← get).rest.take width
    -- the digits have to be there in full and have to name a character
    let code := Number.ofHex digits
    if digits.length ≠ width || !digits.all isHexDigit || !code.isValidChar then malformed
    forward width
    return [Char.ofNat code]
  | none, none => do
    if !isBreak c then malformed
    let _ ← takeBreak
    takeQuotedBreaks (← fuelLeft)

/-- The text up to the closing quote. -/
def takeQuotedBody (double : Bool) : Nat → Lex (List Char)
  | 0 => malformed
  | fuel + 1 => do
    let c ← peek
    let quote := if double then '"' else '\''
    if c = endMark then malformed
    else if c = quote then
      -- between single quotes a quote is written twice
      if !double && (← peekAt 1) = '\'' then
        forward 2
        return '\'' :: (← takeQuotedBody double fuel)
      else return []
    else if double && c = '\\' then
      let s ← takeEscape
      return s ++ (← takeQuotedBody double fuel)
    else if isIndenting c || isBreak c then
      let spaces ← takeRun isIndenting
      let next ← peek
      let s ←
        if next = endMark then malformed
        else if isBreak next then do
          let b ← takeBreak
          let more ← takeQuotedBreaks (← fuelLeft)
          -- the end of a line counts as a space, unless empty lines follow it
          pure ((if b ≠ ['\n'] then b else if more.isEmpty then [' '] else []) ++ more)
        else pure spaces
      return s ++ (← takeQuotedBody double fuel)
    else
      forward 1
      return c :: (← takeQuotedBody double fuel)

/-- A quoted scalar. -/
def takeQuoted (double : Bool) : Lex Token := do
  forward 1
  let text ← takeQuotedBody double (← fuelLeft)
  forward 1
  return .scalar text false

/-! ## Section 7: Plain scalars -/

/-- The characters that stand for themselves only inside of flow collections. -/
def flowMarks : List Char := [',', '[', ']', '{', '}']

/-- The word at this place. -/
def plainWord (inFlow : Bool) : List Char → List Char
  | [] => []
  | c :: r =>
    let next := r.headD endMark
    if isBlankOrEnd c || (c = ':' && (isBlankOrEnd next || (inFlow && flowMarks.contains next)))
      || (inFlow && (c = '?' || flowMarks.contains c))
    then [] else c :: plainWord inFlow r

/-- The empty lines and indentations between the lines of a plain scalar; nothing where documents
are divided. -/
def takePlainBreaks : Nat → Lex (Option (List Char))
  | 0 => return some []
  | fuel + 1 => do
    let c ← peek
    if c = ' ' then
      forward 1
      takePlainBreaks fuel
    else if isBreak c then
      let b ← takeBreak
      if ← atAnyDivider then return none
      return (← takePlainBreaks fuel).map (b ++ ·)
    else return some []

/-- The blanks behind a word of a plain scalar, as they count in its text; none where it ends. -/
def takePlainSpaces : Lex (List Char) := do
  let spaces ← takeRun (· = ' ')
  if isBreak (← peek) then
    let b ← takeBreak
    allowKey true
    if ← atAnyDivider then return []
    match ← takePlainBreaks (← fuelLeft) with
    | none => return []
    | some more =>
      return (if b ≠ ['\n'] then b else if more.isEmpty then [' '] else []) ++ more
  else return spaces

/-- The words of a plain scalar. -/
def takePlainWords (indent : Int) (spaces : List Char) : Nat → Lex (List Char)
  | 0 => return []
  | fuel + 1 => do
    let l ← get
    let word := if l.rest.head? = some '#' then [] else plainWord (l.flow ≠ 0) l.rest
    if word.isEmpty then return []
    allowKey false
    forward word.length
    let next ← takePlainSpaces
    let l ← get
    -- a comment ends the scalar, and so does a line that is not indented deep enough
    if next.isEmpty || l.rest.head? = some '#' || (l.flow = 0 && l.column < indent) then
      return spaces ++ word
    else return spaces ++ word ++ (← takePlainWords indent next fuel)

/-- A plain scalar. -/
def takePlain : Lex Token := do
  let l ← get
  return .scalar (← takePlainWords (l.indent + 1) [] (← fuelLeft)) true

/-! ## Section 8: All tokens -/

/-- The end of the document. -/
def fetchEnd : Lex Unit := do
  unwind (-1)
  dropKey
  push .streamEnd

/-- A mark that divides documents, or a directive. -/
def fetchDivider (token : Lex Token) : Lex Unit := do
  unwind (-1)
  dropKey
  allowKey false
  push (← token)

/-- The beginning of a flow collection. -/
def fetchFlowStart (t : Token) : Lex Unit := do
  saveKey
  modify fun l => { l with flow := l.flow + 1 }
  allowKey true
  forward 1
  push t

/-- The end of a flow collection. -/
def fetchFlowEnd (t : Token) : Lex Unit := do
  dropKey
  if (← get).flow = 0 then malformed
  modify fun l => { l with flow := l.flow - 1 }
  allowKey false
  forward 1
  push t

/-- A mark that begins a block collection where none is open at its column. -/
def beginBlock (t : Token) : Lex Unit := do
  let l ← get
  if l.flow = 0 then
    if !l.keyAllowed then malformed
    if ← indentTo l.column then push t

/-- The mark of an entry of a block sequence. -/
def fetchBlockEntry : Lex Unit := do
  beginBlock .blockSequenceStart
  allowKey true
  dropKey
  forward 1
  push .blockEntry

/-- The mark of a key. -/
def fetchKey : Lex Unit := do
  beginBlock .blockMappingStart
  allowKey ((← get).flow = 0)
  dropKey
  forward 1
  push .key

/-- The mark of a value; the key before it gets its own mark. -/
def fetchValue : Lex Unit := do
  let l ← get
  match l.keys.lookup l.flow with
  | some k =>
    -- what stands before the colon turns out to be a key: its mark goes in front of it
    set { l with
      keys := l.keys.filter fun e => e.1 ≠ l.flow
      tokens := l.tokens.insertIdxIfInBounds k.tokens .key }
    if l.tokens.size = k.tokens then malformed
    if l.flow = 0 then
      if ← indentTo k.column then
        modify fun l =>
          { l with tokens := l.tokens.insertIdxIfInBounds k.tokens .blockMappingStart }
    allowKey false
  | none =>
    beginBlock .blockMappingStart
    allowKey ((← get).flow = 0)
    dropKey
  forward 1
  push .value

/-- A token that may be a key. -/
def fetchNode (token : Lex Token) : Lex Unit := do
  saveKey
  allowKey false
  push (← token)

/-- A block scalar, which is never a key. -/
def fetchBlockScalar (folded : Bool) : Lex Unit := do
  allowKey true
  dropKey
  push (← takeBlockScalar folded)

/-- The characters that no plain scalar begins with. -/
def indicators : List Char :=
  ['-', '?', ':', ',', '[', ']', '{', '}', '#', '&', '*', '!', '|', '>', '\'', '"', '%', '@',
    '\x60']

/-- Whether a plain scalar begins with a character, given the one behind it. -/
def beginsPlain (inFlow : Bool) (c next : Char) : Bool :=
  !(isBlankOrEnd c || indicators.contains c)
    || (!isBlankOrEnd next && (c = '-' || (!inFlow && (c = '?' || c = ':'))))

/-- One step: the tokens at this place.  The answer says whether the document has ended. -/
def fetch : Lex Bool := do
  -- collections that are indented deeper than this place end here
  skipBlanks (← fuelLeft)
  dropStaleKeys
  unwind (← get).column
  let l ← get
  let c ← peek
  let next ← peekAt 1
  let inFlow := l.flow ≠ 0
  if c = endMark then
    fetchEnd
    return true
  if c = '%' && l.column = 0 then fetchDivider takeDirective
  else if l.column = 0 && (← atDivider '-') then
    fetchDivider (do forward 3; return .documentStart)
  else if l.column = 0 && (← atDivider '.') then
    fetchDivider (do forward 3; return .documentEnd)
  else if c = '[' then fetchFlowStart .flowSequenceStart
  else if c = '{' then fetchFlowStart .flowMappingStart
  else if c = ']' then fetchFlowEnd .flowSequenceEnd
  else if c = '}' then fetchFlowEnd .flowMappingEnd
  else if c = ',' then
    allowKey true
    dropKey
    forward 1
    push .flowEntry
  else if c = '-' && isBlankOrEnd next then fetchBlockEntry
  else if c = '?' && (inFlow || isBlankOrEnd next) then fetchKey
  else if c = ':' && (inFlow || isBlankOrEnd next) then fetchValue
  else if c = '*' then fetchNode (do return .alias (← takeName))
  else if c = '&' then fetchNode (do return .anchor (← takeName))
  else if c = '!' then fetchNode takeTag
  else if c = '|' && !inFlow then fetchBlockScalar false
  else if c = '>' && !inFlow then fetchBlockScalar true
  else if c = '\'' then fetchNode (takeQuoted false)
  else if c = '"' then fetchNode (takeQuoted true)
  else if beginsPlain inFlow c next then fetchNode takePlain
  else malformed
  return false

/-- Steps to the end of the document. -/
def fetchAll : Nat → Lex Unit
  | 0 => malformed
  | fuel + 1 => do
    if !(← fetch) then fetchAll fuel

/-- A lexer at the start of a document. -/
def Lexer.start (s : List Char) : Lexer where
  rest := s
  index := 0
  line := 0
  column := 0
  indent := -1
  indents := []
  flow := 0
  keyAllowed := true
  keys := []
  tokens := #[]

/-- The tokens of a document. -/
def Token.ofText (s : List Char) : Result (List Token) := do
  if !s.all isAllowed then throw .malformed
  -- a byte order mark at the start is no part of the document
  let body := match s with
    | '\uFEFF' :: r => r
    | r => r
  let (_, l) ← (fetchAll (body.length + 2)).run (.start body)
  return l.tokens.toList

end Overlay.Yaml
