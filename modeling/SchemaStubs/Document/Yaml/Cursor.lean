import SchemaStubs.Text.Quoted

/-!
The place a reader of a YAML text stands at, and the classes of characters it goes by. Five
characters end a line; the two that separate lines and paragraphs of running text stay what they are
when a scalar takes them in, and all others are read as line feeds.
-/

namespace SchemaStubs.Document.Yaml

def isBlank (c : Char) : Bool :=
  c == ' ' || c == '\t'

def isBreak (c : Char) : Bool :=
  c == '\n' || c == '\r' || c.toNat == 0x85 || c.toNat == 0x2028 || c.toNat == 0x2029

def endsLine : List Char → Bool
  | [] => true
  | c :: _ => isBreak c

def endsWord : List Char → Bool
  | [] => true
  | c :: _ => isBlank c || isBreak c

/-- The characters of the names of anchors, directives and tag handles. -/
def isNameChar (c : Char) : Bool :=
  c.isAlphanum || c == '_' || c == '-'

/-- The characters that enclose and separate flow collections. -/
def isFlowMark (c : Char) : Bool :=
  c == ',' || c == '[' || c == ']' || c == '\x7b' || c == '\x7d'

/-- What remains of a text, and where its first character stands. -/
structure Cursor where
  rest : List Char
  index : Nat := 0
  line : Nat := 0
  column : Nat := 0
  /-- Whether nothing but blanks came since the last line end. -/
  fresh : Bool := false
  deriving Repr, Inhabited

namespace Cursor

def skip (cursor : Cursor) : Cursor :=
  match cursor.rest with
  | [] => cursor
  | c :: rest =>
      { cursor with rest, index := cursor.index + 1, column := cursor.column + 1,
                    fresh := cursor.fresh && isBlank c }

def skipMany : Nat → Cursor → Cursor
  | 0, cursor => cursor
  | count + 1, cursor => skipMany count cursor.skip

def newLine (cursor : Cursor) (length : Nat) : Cursor :=
  { cursor with rest := cursor.rest.drop length, index := cursor.index + length,
                line := cursor.line + 1, column := 0, fresh := true }

/-- Goes over a line end, and gives what it is read as. -/
def readBreak (cursor : Cursor) : List Char × Cursor :=
  match cursor.rest with
  | '\r' :: '\n' :: _ => (['\n'], cursor.newLine 2)
  | c :: _ =>
      if c.toNat == 0x2028 || c.toNat == 0x2029 then ([c], cursor.newLine 1)
      else if isBreak c then (['\n'], cursor.newLine 1)
      else ([], cursor)
  | [] => ([], cursor)

def skipBreak (cursor : Cursor) : Cursor :=
  cursor.readBreak.2

def skipWhile (class? : Char → Bool) (cursor : Cursor) : Cursor :=
  skipMany (cursor.rest.takeWhile class?).length cursor

def skipBlanks (cursor : Cursor) : Cursor :=
  cursor.skipWhile isBlank

def skipLine (cursor : Cursor) : Cursor :=
  cursor.skipWhile fun c => !isBreak c

def skipSpace : Nat → Cursor → Cursor
  | 0, cursor => cursor
  | bound + 1, cursor =>
      match cursor.rest with
      | [] => cursor
      | c :: _ =>
          if isBreak c then skipSpace bound cursor.skipBreak
          else if isBlank c then skipSpace bound cursor.skip
          else cursor

/-- Whether the text goes on with three times the mark as the only word at the start of a line. -/
def atMarker (mark : Char) (cursor : Cursor) : Bool :=
  cursor.column == 0 && cursor.rest.take 3 == [mark, mark, mark] && endsWord (cursor.rest.drop 3)

def atDocumentMarker (cursor : Cursor) : Bool :=
  cursor.atMarker '-' || cursor.atMarker '.'

end Cursor

end SchemaStubs.Document.Yaml
