import SchemaStubs.Document.Yaml.Token

/-!
Cutting a YAML text into tokens. Block collections have no tokens of their own in the text: they
begin where an entry or a key stands further right than the collection around it, and end where a
token stands further left. A key is not known as such before its colon is seen, so every place where
a key may start is remembered until it turns out to be one or not; a key and its colon stand in one
line, no more than 1024 characters apart.
-/

namespace SchemaStubs.Document.Yaml

structure KeyStart where
  /-- The number of the token that starts there. -/
  token : Nat
  /-- Whether nothing but a key can stand there. -/
  required : Bool
  cursor : Cursor
  deriving Repr, Inhabited

/-- Whether it is too late for a colon to make a key of what started there. -/
def KeyStart.isStale (start : KeyStart) (cursor : Cursor) : Bool :=
  start.cursor.line < cursor.line || start.cursor.index + 1024 < cursor.index

def deepest : Nat :=
  10000

structure Scanner where
  /-- How many characters the text has. -/
  size : Nat
  cursor : Cursor
  tokens : Array Token := #[.streamStart]
  /-- The column of the innermost block collection; negative outside of all. -/
  indent : Int := -1
  /-- The columns of the block collections around it, and how many they are. -/
  outer : List Int := []
  depth : Nat := 0
  /-- How many flow collections are open. -/
  flow : Nat := 0
  /-- Whether a key may start here. -/
  keyAllowed : Bool := true
  /-- Where a key may have started in the innermost flow collection, or outside of all. -/
  start? : Option KeyStart := none
  /-- The same for the collections around it. -/
  outerStarts : List (Option KeyStart) := []
  deriving Inhabited

namespace Scanner

def inFlow (scanner : Scanner) : Bool :=
  scanner.flow != 0

def bound (scanner : Scanner) : Nat :=
  scanner.size + 1 - scanner.cursor.index

def push (scanner : Scanner) (token : Token) : Scanner :=
  { scanner with tokens := scanner.tokens.push token }

/-- Moves on to a place and adds the token that ends there. -/
def take (scanner : Scanner) (token : Token) (cursor : Cursor) : Scanner :=
  { scanner.push token with cursor }

/-- Ends the block collections that stand right of a column. The number bounds how many there
are. -/
def unroll (column : Int) : Nat → Scanner → Scanner
  | 0, scanner => scanner
  | bound + 1, scanner =>
      if scanner.inFlow || scanner.indent ≤ column then scanner
      else
        unroll column bound
          { scanner.push .blockEnd with
            indent := scanner.outer.headD (-1)
            outer := scanner.outer.tail
            depth := scanner.depth - 1 }

def dedent (scanner : Scanner) (column : Int) : Scanner :=
  scanner.unroll column scanner.depth

/-- Begins a block collection if the column stands right of the innermost one; its token comes
before the token of the given number. -/
def indentTo (scanner : Scanner) (column : Nat) (position : Nat) (token : Token) :
    Option Scanner :=
  if scanner.inFlow || (column : Int) ≤ scanner.indent then some scanner
  else if deepest ≤ scanner.depth then none
  else some { scanner with
    tokens := scanner.tokens.insertIdxIfInBounds position token
    indent := column
    outer := scanner.indent :: scanner.outer
    depth := scanner.depth + 1 }

def dropKey (scanner : Scanner) : Option Scanner :=
  if scanner.start?.any KeyStart.required then none
  else some { scanner with start? := none }

def saveKey (scanner : Scanner) : Option Scanner :=
  if !scanner.keyAllowed then some scanner
  else do
    let dropped ← scanner.dropKey
    let required := !scanner.inFlow && scanner.indent == (scanner.cursor.column : Int)
    some { dropped with
      start? := some { token := scanner.tokens.size, required, cursor := scanner.cursor } }

/-- Goes over comments: the rest of this line, and the following lines as long as they hold nothing
else. -/
def skipComments : Nat → Cursor → Cursor
  | 0, cursor => cursor
  | bound + 1, cursor =>
      let after := cursor.skipLine
      let next := after.skipSpace bound
      if next.rest.head? == some '#' then skipComments bound next else after

/-- Goes to the next token. Tabs are skipped where no key may start. In a block a new line may start
a key. -/
def toToken : Nat → Scanner → Scanner
  | 0, scanner => scanner
  | bound + 1, scanner =>
      let tabs := scanner.inFlow || !scanner.keyAllowed
      let start := scanner.cursor.skipWhile fun c => c == ' ' || (tabs && c == '\t')
      let cursor := if start.rest.head? == some '#' then skipComments bound start else start
      if cursor.rest.head?.any isBreak then
        toToken bound { scanner with
          cursor := cursor.skipBreak
          keyAllowed := scanner.keyAllowed || !scanner.inFlow }
      else { scanner with cursor }

def skipLineComment (scanner : Scanner) : Scanner :=
  let next := scanner.cursor.skipBlanks
  if !scanner.cursor.fresh && next.rest.head? == some '#' then
    { scanner with cursor := next.skipLine }
  else scanner

def leaveBlocks (scanner : Scanner) : Option Scanner := do
  let left ← (scanner.dedent (-1)).dropKey
  some { left with keyAllowed := false }

def openFlow (scanner : Scanner) (token : Token) : Option Scanner := do
  let saved ← scanner.saveKey
  if deepest ≤ saved.flow then none
  some { saved.take token saved.cursor.skip with
    flow := saved.flow + 1
    keyAllowed := true
    start? := none
    outerStarts := saved.start? :: saved.outerStarts }

def closeFlow (scanner : Scanner) (token : Token) : Option Scanner := do
  let dropped ← scanner.dropKey
  let closed := { dropped.take token dropped.cursor.skip with keyAllowed := false }
  if closed.inFlow then
    some { closed with
      flow := closed.flow - 1
      start? := closed.outerStarts.headD none
      outerStarts := closed.outerStarts.tail }
  else some closed

def flowEntry (scanner : Scanner) : Option Scanner := do
  let dropped ← scanner.dropKey
  some { dropped.take .flowEntry dropped.cursor.skip with keyAllowed := true }

/-- An entry of a block sequence; inside a flow collection the token is left for the reader to
refuse. -/
def blockEntry (scanner : Scanner) : Option Scanner := do
  if !scanner.inFlow && !scanner.keyAllowed then none
  let entered ← scanner.indentTo scanner.cursor.column scanner.tokens.size .blockSequence
  let dropped ← entered.dropKey
  some { dropped.take .blockEntry dropped.cursor.skip with keyAllowed := true }

def explicitKey (scanner : Scanner) : Option Scanner := do
  if !scanner.inFlow && !scanner.keyAllowed then none
  let entered ← scanner.indentTo scanner.cursor.column scanner.tokens.size .blockMapping
  let dropped ← entered.dropKey
  some { dropped.take .key dropped.cursor.skip with keyAllowed := !scanner.inFlow }

def implicitKey (scanner : Scanner) (start : KeyStart) : Option Scanner := do
  let marked := { scanner with
    tokens := scanner.tokens.insertIdxIfInBounds start.token .key }
  let entered ← marked.indentTo start.cursor.column start.token .blockMapping
  some { entered.take .value entered.cursor.skip with keyAllowed := false, start? := none }

/-- A colon after an explicit key, or after nothing. -/
def explicitValue (scanner : Scanner) : Option Scanner := do
  if !scanner.inFlow && !scanner.keyAllowed then none
  let entered ← scanner.indentTo scanner.cursor.column scanner.tokens.size .blockMapping
  some { entered.take .value entered.cursor.skip with keyAllowed := !scanner.inFlow }

def value (scanner : Scanner) : Option Scanner :=
  match scanner.start? with
  | none => scanner.explicitValue
  | some start =>
      if !start.isStale scanner.cursor then scanner.implicitKey start
      else if start.required then none
      else { scanner with start? := none }.explicitValue

def keyLike (scanner : Scanner) (read : Cursor → Option (Token × Cursor)) : Option Scanner := do
  let saved ← scanner.saveKey
  let (token, after) ← read saved.cursor
  some { saved.take token after with keyAllowed := false }

def quoted (scanner : Scanner) (mark : Char) : Option Scanner :=
  scanner.keyLike fun cursor => do
    let (text, after) ← readQuoted mark scanner.bound [] cursor.skip
    some (.scalar (String.ofList text) false, after)

def block (scanner : Scanner) (folded : Bool) : Option Scanner := do
  let dropped ← scanner.dropKey
  let (text, after) ← readBlock folded dropped.indent dropped.bound dropped.cursor.skip
  some { dropped.take (.scalar (String.ofList text) false) after with keyAllowed := true }

def plain (scanner : Scanner) : Option Scanner := do
  let saved ← scanner.saveKey
  let indent := (saved.indent + 1).toNat
  let (text, after, broken) ← readPlain saved.inFlow indent saved.bound [] {} saved.cursor
  some { saved.take (.scalar (String.ofList text) true) after with keyAllowed := broken }

def isIndicator (c : Char) : Bool :=
  isFlowMark c || c == Text.apostrophe ||
    ['-', '?', ':', '#', '&', '*', '!', '|', '>', '"', '%', '@', Char.ofNat 96].contains c

def startsPlain (inFlow : Bool) : List Char → Bool
  | [] => false
  | c :: rest =>
      !(isBlank c || isBreak c || isIndicator c) || (c == '-' && !rest.head?.any isBlank) ||
        (!inFlow && (c == '?' || c == ':') && !endsWord rest)

def token (scanner : Scanner) (c : Char) (rest : List Char) : Option Scanner :=
  if c == '[' then scanner.openFlow .flowSequence
  else if c == '\x7b' then scanner.openFlow .flowMapping
  else if c == ']' then scanner.closeFlow .flowSequenceEnd
  else if c == '\x7d' then scanner.closeFlow .flowMappingEnd
  else if c == ',' then scanner.flowEntry
  else if c == '-' && endsWord rest then scanner.blockEntry
  else if c == '?' && (scanner.inFlow || endsWord rest) then scanner.explicitKey
  else if c == ':' && (scanner.inFlow || endsWord rest) then scanner.value
  else if c == '*' then scanner.keyLike fun cursor =>
    (readAnchor cursor.skip).map fun (name, after) => (.aliasOf name, after)
  else if c == '&' then scanner.keyLike fun cursor =>
    (readAnchor cursor.skip).map fun (name, after) => (.anchor name, after)
  else if c == '!' then scanner.keyLike readTag
  else if c == '|' && !scanner.inFlow then scanner.block false
  else if c == '>' && !scanner.inFlow then scanner.block true
  else if c == '"' || c == Text.apostrophe then scanner.quoted c
  else if startsPlain scanner.inFlow (c :: rest) then scanner.plain
  else none

def next (given : Scanner) : Option Scanner := do
  let found := given.toToken given.bound
  let scanner := found.dedent found.cursor.column
  match scanner.cursor.rest with
  | [] => scanner.leaveBlocks.map fun left => left.push .streamEnd
  | c :: rest =>
      if scanner.cursor.column == 0 && c == '%' then do
        let left ← scanner.leaveBlocks
        let (token, after) ← readDirective left.cursor.skip
        some (left.take token after)
      else if scanner.cursor.atMarker '-' then do
        let left ← scanner.leaveBlocks
        some (left.take .documentStart (left.cursor.skipMany 3))
      else if scanner.cursor.atMarker '.' then do
        let left ← scanner.leaveBlocks
        some (left.take .documentEnd (left.cursor.skipMany 3))
      else do
        let taken ← scanner.token c rest
        some (if taken.tokens.back? == some .blockEntry then taken else taken.skipLineComment)

/-- The numbers of the tokens that may still turn out to be keys, or had to be. -/
def openKeys (scanner : Scanner) : List Nat :=
  ((scanner.start? :: scanner.outerStarts).filterMap id).filterMap fun start =>
    if start.isStale scanner.cursor && !start.required then none else some start.token

/-- The tokens a reader gets to see before the text turns out to be malformed: it looks two tokens
ahead, and further at what may be a key. -/
def readable (scanner : Scanner) : List Token :=
  let count := scanner.openKeys.foldl min (scanner.tokens.size - 2)
  scanner.tokens.toList.take count

def run : Nat → Scanner → List Token
  | 0, scanner => scanner.readable
  | bound + 1, scanner =>
      match scanner.next with
      | none => scanner.readable
      | some reached =>
          if reached.tokens.back? == some .streamEnd then reached.tokens.toList
          else run bound reached

end Scanner

/-- The tokens of a text. They end with the end of the text, unless it is malformed. -/
def tokens (text : List Char) : List Token :=
  let size := text.length
  Scanner.run (size + 1) { size, cursor := { rest := text } }

end SchemaStubs.Document.Yaml
