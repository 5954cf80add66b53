import SchemaStubs.Document.Yaml.Cursor

/-!
The five styles of YAML scalars. A line end inside a plain or quoted scalar is a space, and blank
lines inside it are line ends. A literal block keeps its line ends; a folded block turns the line
end between two lines of text into a space. What follows the mark of a block is its indentation
(one digit) and what happens to the line ends after it.
-/

namespace SchemaStubs.Document.Yaml

structure Gap where
  /-- The blanks, as long as no line ended. -/
  blanks : List Char := []
  /-- What the first line end is read as. -/
  first : List Char := []
  /-- What the other line ends are read as. -/
  more : List Char := []
  /-- Whether a line ended. -/
  broken : Bool := false
  deriving Repr, Inhabited

/-- What a gap is read as: a single line feed as a space, more of them as one less. -/
def Gap.text (gap : Gap) : List Char :=
  if !gap.broken then gap.blanks
  else if gap.first.head? == some '\n' then if gap.more.isEmpty then [' '] else gap.more
  else gap.first ++ gap.more

/-- Goes over a gap. A tab may not stand left of `indent` in a new line. The number bounds the
length of the gap. -/
def readGap (indent : Nat) : Nat → Gap → Cursor → Option (Gap × Cursor)
  | 0, gap, cursor => some (gap, cursor)
  | bound + 1, gap, cursor =>
      match cursor.rest with
      | [] => some (gap, cursor)
      | c :: _ =>
          if isBreak c then
            let (text, next) := cursor.readBreak
            if gap.broken then readGap indent bound { gap with more := gap.more ++ text } next
            else readGap indent bound { first := text, broken := true } next
          else if !isBlank c then some (gap, cursor)
          else if !gap.broken then
            readGap indent bound { gap with blanks := gap.blanks ++ [c] } cursor.skip
          else if c == '\t' && cursor.column < indent then none
          else readGap indent bound gap cursor.skip

def escapedChar (letter : Char) : Option Nat :=
  match letter with
  | '0' => some 0
  | 'a' => some 7
  | 'b' => some 8
  | 't' => some 9
  | '\t' => some 9
  | 'n' => some 10
  | 'v' => some 11
  | 'f' => some 12
  | 'r' => some 13
  | 'e' => some 27
  | ' ' => some 32
  | '"' => some 34
  | '\\' => some 92
  | 'N' => some 0x85
  | '_' => some 0xA0
  | 'L' => some 0x2028
  | 'P' => some 0x2029
  | _ => if letter == Text.apostrophe then some 39 else none

def escapeWidth (letter : Char) : Nat :=
  match letter with
  | 'x' => 2
  | 'u' => 4
  | 'U' => 8
  | _ => 0

def readEscape : List Char → Option (Char × Nat)
  | [] => none
  | letter :: rest =>
      if escapeWidth letter = 0 then (escapedChar letter).map fun code => (Char.ofNat code, 1)
      else (Text.readCode (escapeWidth letter) rest).map fun (c, _) => (c, escapeWidth letter + 1)

/-- A quoted scalar whose opening quote was read; what is read so far is given in reverse. Between
apostrophes two of them stand for one; between double quotes there are escapes, and one of them
takes a line end away. -/
def readQuoted (mark : Char) : Nat → List Char → Cursor → Option (List Char × Cursor)
  | 0, _, _ => none
  | bound + 1, done, cursor =>
      if cursor.atDocumentMarker then none
      else match cursor.rest with
        | [] => none
        | c :: rest =>
            if isBlank c || isBreak c then do
              let (gap, next) ← readGap 0 bound {} cursor
              readQuoted mark bound (gap.text.reverse ++ done) next
            else if c == mark then
              if mark == Text.apostrophe && rest.head? == some mark then
                readQuoted mark bound (mark :: done) (cursor.skipMany 2)
              else some (done.reverse, cursor.skip)
            else if c != '\\' || mark == Text.apostrophe then
              readQuoted mark bound (c :: done) cursor.skip
            else if rest.head?.any isBreak then do
              let (gap, next) ← readGap 0 bound { broken := true } cursor.skip.skipBreak
              readQuoted mark bound (gap.text.reverse ++ done) next
            else do
              let (escaped, length) ← readEscape rest
              readQuoted mark bound (escaped :: done) (cursor.skipMany (length + 1))

/-- Whether a plain scalar ends before this character of a line: a colon ends it before a blank, and
in a flow collection the marks of flow collections and of keys do. -/
def endsPlain (inFlow : Bool) : List Char → Bool
  | [] => true
  | c :: rest =>
      isBlank c || isBreak c || (c == ':' && endsWord rest) ||
        (inFlow && (c == '?' || isFlowMark c))

def plainWord (inFlow : Bool) : List Char → List Char
  | [] => []
  | c :: rest => if endsPlain inFlow (c :: rest) then [] else c :: plainWord inFlow rest

/-- The words of a plain scalar after a gap. A new line has to be indented by `indent` at least,
unless it is inside a flow collection. The last component tells whether a line ended after the last
word. -/
def readPlain (inFlow : Bool) (indent : Nat) :
    Nat → List Char → Gap → Cursor → Option (List Char × Cursor × Bool)
  | 0, _, _, _ => none
  | bound + 1, done, gap, cursor =>
      let word := plainWord inFlow cursor.rest
      if cursor.atDocumentMarker || cursor.rest.head? == some '#' || word.isEmpty then
        some (done.reverse, cursor, gap.broken)
      else do
        let read := word.reverse ++ gap.text.reverse ++ done
        let (next, after) ← readGap indent bound {} (cursor.skipMany word.length)
        if (!inFlow && after.column < indent) || (next.blanks.isEmpty && !next.broken) then
          some (read.reverse, after, next.broken)
        else readPlain inFlow indent bound read next after

/-- What happens to the line ends after a block: one stays, none stays, or all stay. -/
inductive Chomping where
  | clip
  | strip
  | keep
  deriving DecidableEq, Repr

def chomping? (c : Char) : Option Chomping :=
  if c == '+' then some .keep else if c == '-' then some .strip else none

def digit? (c : Char) : Option Nat :=
  if c.isDigit then some (c.toNat - 48) else none

/-- The indentation and the sign after the mark of a block, in either order, and how many characters
they have. An indentation that is not given is zero. -/
def readBlockHeader (text : List Char) : Nat × Chomping × Nat :=
  let first := text.head?
  let second := text.tail.head?
  match first.bind chomping?, first.bind digit? with
  | some chomping, _ =>
      match second.bind digit? with
      | some digit => (digit, chomping, 2)
      | none => (0, chomping, 1)
  | none, some digit =>
      match second.bind chomping? with
      | some chomping => (digit, chomping, 2)
      | none => (digit, .clip, 1)
  | none, none => (0, .clip, 0)

/-- Whether the indentation of a block is given as zero. -/
def hasZeroHeader (text : List Char) : Bool :=
  let first := text.head?
  first == some '0' || ((first.bind chomping?).isSome && text.tail.head? == some '0')

/-- Goes over the indentation of a line, of any size if `indent` is zero. -/
def skipIndent (indent : Nat) (cursor : Cursor) : Cursor :=
  let spaces := (cursor.rest.takeWhile fun c => c == ' ').length
  cursor.skipMany (if indent = 0 then spaces else min spaces (indent - cursor.column))

/-- Goes over blank lines of a block and the indentation of the line after them: the widest
indentation, what the line ends are read as, and the place after them. A tab may not stand in the
indentation. -/
def readBlankLines (indent : Nat) :
    Nat → Nat → List Char → Cursor → Option (Nat × List Char × Cursor)
  | 0, widest, breaks, cursor => some (widest, breaks, cursor)
  | bound + 1, widest, breaks, cursor =>
      let start := skipIndent indent cursor
      let wide := max widest start.column
      if (indent = 0 || start.column < indent) && start.rest.head? == some '\t' then none
      else if start.rest.head?.any isBreak then
        let (text, next) := start.readBreak
        readBlankLines indent bound wide (breaks ++ text) next
      else some (wide, breaks, start)

/-- What the text of a block is followed by so far: the line end of its last line and those of the
blank lines after it. -/
structure Tail where
  last : List Char := []
  blanks : List Char := []
  /-- Whether the last line started with a blank. -/
  afterBlank : Bool := false
  deriving Repr, Inhabited

/-- What stands between two lines of a block. In a folded block a single line feed between lines
that do not start with a blank is a space. -/
def Tail.joint (tail : Tail) (folded startsBlank : Bool) : List Char :=
  if folded && !tail.afterBlank && !startsBlank && tail.last.head? == some '\n' then
    if tail.blanks.isEmpty then [' '] else tail.blanks
  else tail.last ++ tail.blanks

def Tail.chomped (tail : Tail) : Chomping → List Char
  | .strip => []
  | .clip => tail.last
  | .keep => tail.last ++ tail.blanks

def readBlockLines (folded : Bool) (indent : Nat) :
    Nat → List Char → Tail → Cursor → Option (List Char × Tail × Cursor)
  | 0, _, _, _ => none
  | bound + 1, done, tail, cursor =>
      if cursor.column != indent || cursor.rest.isEmpty then some (done, tail, cursor)
      else do
        let startsBlank := cursor.rest.head?.any isBlank
        let line := cursor.rest.takeWhile fun c => !isBreak c
        let (last, next) := (cursor.skipMany line.length).readBreak
        let (_, blanks, after) ← readBlankLines indent bound 0 [] next
        readBlockLines folded indent bound
          (line.reverse ++ (tail.joint folded startsBlank).reverse ++ done)
          { last, blanks, afterBlank := startsBlank } after

/-- The end of the line that holds the mark of a block: only blanks and a comment may stand
there. -/
def endHeader (cursor : Cursor) : Option Cursor :=
  let start := cursor.skipBlanks
  let found := if start.rest.head? == some '#' then start.skipLine else start
  if endsLine found.rest then some found.skipBreak else none

/-- A block scalar whose mark was read; `scope` is the column of the collection around it, and
`bound` limits the length of the scalar. -/
def readBlock (folded : Bool) (scope : Int) (bound : Nat) (cursor : Cursor) :
    Option (List Char × Cursor) := do
  if hasZeroHeader cursor.rest then none
  let (digit, chomping, length) := readBlockHeader cursor.rest
  let start ← endHeader (cursor.skipMany length)
  let given := if digit = 0 then 0 else digit + scope.toNat
  let (widest, blanks, first) ← readBlankLines given bound 0 [] start
  let indent := if given = 0 then max widest (max (scope + 1).toNat 1) else given
  let (done, tail, after) ← readBlockLines folded indent bound [] { blanks } first
  some (done.reverse ++ tail.chomped chomping, after)

end SchemaStubs.Document.Yaml
