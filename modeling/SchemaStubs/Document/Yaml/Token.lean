import SchemaStubs.Document.Yaml.Scalar

/-!
The tokens of a YAML text, and reading those that have a form of their own: anchors, tags and
directives.
-/

namespace SchemaStubs.Document.Yaml

inductive Token where
  | streamStart
  | streamEnd
  | version (major minor : Nat)
  /-- Says what a handle at the start of tags stands for. -/
  | handle (name meaning : String)
  | documentStart
  | documentEnd
  | blockSequence
  | blockMapping
  | blockEnd
  | flowSequence
  | flowSequenceEnd
  | flowMapping
  | flowMappingEnd
  | blockEntry
  | flowEntry
  | key
  | value
  | anchor (name : String)
  | aliasOf (name : String)
  | tag (handle suffix : String)
  | scalar (text : String) (plain : Bool)
  deriving DecidableEq, Repr, Inhabited

def endsAnchor (text : List Char) : Bool :=
  endsWord text ||
    text.head?.any fun c => ['?', ':', ',', ']', '\x7d', '%', '@', Char.ofNat 96].contains c

def readAnchor (cursor : Cursor) : Option (String × Cursor) :=
  let name := cursor.rest.takeWhile isNameChar
  let after := cursor.skipMany name.length
  if name.isEmpty || !endsAnchor after.rest then none else some (String.ofList name, after)

def isTagChar (c : Char) : Bool :=
  isNameChar c || c == Text.apostrophe ||
    [';', '/', '?', ':', '@', '&', '=', '+', '$', ',', '.', '%', '!', '~', '*', '(', ')', '[',
      ']'].contains c

/-- The bytes that characters of a tag stand for: a percent sign and two digits stand for a byte. -/
def tagBytes : List Char → Option (List UInt8)
  | '%' :: high :: low :: rest => do
      let byte ← Text.hexNumber [high, low]
      let more ← tagBytes rest
      some (UInt8.ofNat byte :: more)
  | '%' :: _ => none
  | c :: rest => (tagBytes rest).map (Text.utf8 c ++ ·)
  | [] => some []

def tagText (written : List Char) : Option String := do
  let chars ← (Text.pieces (← tagBytes written)).mapM Text.Piece.char?
  some (String.ofList chars)

def readTagText (cursor : Cursor) : Option (String × Cursor) := do
  let written := cursor.rest.takeWhile isTagChar
  if written.isEmpty then none
  some (← tagText written, cursor.skipMany written.length)

/-- A handle: an exclamation mark, a name and another exclamation mark; without the second mark it
is only the start of a tag. -/
def readHandle (cursor : Cursor) : List Char × Cursor :=
  let name := (cursor.rest.drop 1).takeWhile isNameChar
  let marked := (cursor.rest.drop (name.length + 1)).head? == some '!'
  let handle := '!' :: name ++ if marked then ['!'] else []
  (handle, cursor.skipMany handle.length)

/-- A tag in angle brackets, which has no handle. -/
def readVerbatim (cursor : Cursor) : Option (Token × Cursor) := do
  let (suffix, after) ← readTagText (cursor.skipMany 2)
  if after.rest.head? == some '>' then some (.tag "" suffix, after.skip) else none

/-- A tag with a handle, or with the handle `!` and the rest of its text. -/
def readShorthand (cursor : Cursor) : Option (Token × Cursor) := do
  let (handle, after) := readHandle cursor
  if 1 < handle.length && handle.getLast? == some '!' then do
    let (suffix, next) ← readTagText after
    some (.tag (String.ofList handle) suffix, next)
  else do
    let written := after.rest.takeWhile isTagChar
    let suffix := String.ofList (handle.drop 1) ++ (← tagText written)
    let next := after.skipMany written.length
    some (if suffix == "" then .tag "" "!" else .tag "!" suffix, next)

def readTag (cursor : Cursor) : Option (Token × Cursor) := do
  let (token, after) ←
    if cursor.rest.take 2 == ['!', '<'] then readVerbatim cursor else readShorthand cursor
  if endsWord after.rest then some (token, after) else none

def readVersionPart (cursor : Cursor) : Option (Nat × Cursor) :=
  let digits := cursor.rest.takeWhile Char.isDigit
  if digits.isEmpty || 2 < digits.length then none
  else some (digits.foldl (fun value c => value * 10 + (c.toNat - 48)) 0,
    cursor.skipMany digits.length)

def readVersion (cursor : Cursor) : Option (Token × Cursor) := do
  let (major, after) ← readVersionPart cursor.skipBlanks
  if after.rest.head? != some '.' then none
  let (minor, next) ← readVersionPart after.skip
  some (.version major minor, next)

def readHandleMeaning (cursor : Cursor) : Option (Token × Cursor) := do
  let start := cursor.skipBlanks
  if start.rest.head? != some '!' then none
  let (handle, after) := readHandle start
  if handle.length != 1 && handle.getLast? != some '!' then none
  if !after.rest.head?.any isBlank then none
  let (meaning, next) ← readTagText after.skipBlanks
  if endsWord next.rest then some (.handle (String.ofList handle) meaning, next) else none

def readDirective (cursor : Cursor) : Option (Token × Cursor) := do
  let name := cursor.rest.takeWhile isNameChar
  let after := cursor.skipMany name.length
  if !endsWord after.rest then none
  let (token, next) ←
    if name == "YAML".toList then readVersion after
    else if name == "TAG".toList then readHandleMeaning after
    else none
  some (token, ← endHeader next)

end SchemaStubs.Document.Yaml
