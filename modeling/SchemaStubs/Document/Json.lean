import SchemaStubs.Text.Quoted

/-!
JSON values as a document reader needs them: numbers and strings keep the token they were written
as, because identifiers are read from tokens, and an object keeps its members in order, repeated
names included. Reading takes the first value of a text and leaves the rest. What a token means is
not looked at before it is known what it is read as, so a number may have any characters of numbers
and a string escapes that mean nothing.
-/

namespace SchemaStubs.Document

/-- The name of a member, and how many bytes it was written with between its quotes. -/
structure Json.Name where
  text : String
  written : Nat
  deriving DecidableEq, Repr, Inhabited

inductive Json where
  | null
  | bool (value : Bool)
  | number (token : String)
  /-- There is no text when an escape means nothing. -/
  | string (text : Option String) (token : String)
  | array (items : List Json)
  | object (members : List (Json.Name × Json))
  deriving Repr, Inhabited

namespace Json

def isSpace (c : Char) : Bool :=
  c == ' ' || c == '\t' || c == '\n' || c == '\r'

def skipSpace (text : List Char) : List Char :=
  text.dropWhile isSpace

def afterWord? (word : String) (text : List Char) : Option (List Char) :=
  if word.toList.isPrefixOf text then some (text.drop word.toList.length) else none

/-- The code unit that four characters name, and what follows them. A character that is no
hexadecimal digit counts as zero. -/
def readUnit (text : List Char) : Option (Nat × List Char) :=
  let digits := text.take 4
  if digits.length == 4 && digits.all (fun c => c.toNat < 128) then
    some (digits.foldl (fun unit c => unit * 16 + (Text.hexValue c).getD 0) 0, text.drop 4)
  else none

/-- The character of a code point; half of a surrogate pair is replaced by U+FFFD. -/
def charOfUnit (unit : Nat) : Char :=
  if unit.isValidChar then Char.ofNat unit else Char.ofNat 0xFFFD

/-- What a `u` escape stands for, and what follows it. Two escapes that name a surrogate pair stand
for one character. -/
def readUnicode (text : List Char) : Option (Char × List Char) := do
  let (high, rest) ← readUnit text
  if 0xD800 ≤ high && high < 0xDC00 then
    match rest with
    | '\\' :: 'u' :: more =>
        let (low, rest') ← readUnit more
        if 0xDC00 ≤ low && low < 0xE000 then
          some (Char.ofNat (0x10000 + (high - 0xD800) * 0x400 + (low - 0xDC00)), rest')
        else some (charOfUnit high, rest)
    | _ => some (charOfUnit high, rest)
  else some (charOfUnit high, rest)

def readEscaped : List Char → Option (Char × List Char)
  | '"' :: rest => some ('"', rest)
  | '\\' :: rest => some ('\\', rest)
  | '/' :: rest => some ('/', rest)
  | 'b' :: rest => some (Char.ofNat 8, rest)
  | 'f' :: rest => some (Char.ofNat 12, rest)
  | 'n' :: rest => some ('\n', rest)
  | 'r' :: rest => some ('\r', rest)
  | 't' :: rest => some ('\t', rest)
  | 'u' :: rest => readUnicode rest
  | _ => none

/-- The characters up to the closing quote as they are written, collected in reverse, and what
follows the quote. -/
def scanString : List Char → List Char → Option (List Char × List Char)
  | _, [] => none
  | done, '"' :: rest => some (done.reverse, rest)
  | done, '\\' :: c :: rest => scanString (c :: '\\' :: done) rest
  | done, c :: rest => if c.toNat = 0 then none else scanString (c :: done) rest

def unescape : Nat → List Char → List Char → Option (List Char)
  | _, done, [] => some done.reverse
  | 0, _, _ => none
  | bound + 1, done, '\\' :: rest =>
      match readEscaped rest with
      | some (c, more) => unescape bound (c :: done) more
      | none => none
  | bound + 1, done, c :: rest => unescape bound (c :: done) rest

def content? (written : List Char) : Option String :=
  (unescape written.length [] written).map String.ofList

def readString (text : List Char) : Option (Json × List Char) :=
  (scanString [] text).map fun (written, rest) =>
    (string (content? written) (String.ofList ('"' :: written ++ ['"'])), rest)

def readName (text : List Char) : Option (Name × List Char) := do
  let (written, rest) ← scanString [] text
  let content ← content? written
  some (⟨content, Text.size (String.ofList written)⟩, rest)

def isNumberChar (c : Char) : Bool :=
  c.isDigit || c == '.' || c == 'e' || c == 'E' || c == '+' || c == '-'

/-- A number, and what follows it. Blanks that JSON does not know belong to the token. -/
def readNumber (text : List Char) : Option (Json × List Char) :=
  let blanks := text.takeWhile Text.isBlank
  let rest := text.drop blanks.length
  let digits := rest.takeWhile isNumberChar
  if digits.head?.any fun c => c.isDigit || c == '-' then
    some (number (String.ofList (blanks ++ digits)), rest.drop digits.length)
  else none

mutual

def readValue : Nat → List Char → Option (Json × List Char)
  | 0, _ => none
  | bound + 1, text =>
      match skipSpace text with
      | '\x7b' :: rest =>
          match skipSpace rest with
          | '\x7d' :: more => some (object [], more)
          | more => readMembers bound [] more
      | '[' :: rest =>
          match skipSpace rest with
          | ']' :: more => some (array [], more)
          | more => readItems bound [] more
      | '"' :: rest => readString rest
      | 't' :: rest => (afterWord? "rue" rest).map fun more => (bool true, more)
      | 'f' :: rest => (afterWord? "alse" rest).map fun more => (bool false, more)
      | 'n' :: rest => (afterWord? "ull" rest).map fun more => (null, more)
      | rest => readNumber rest

def readItems : Nat → List Json → List Char → Option (Json × List Char)
  | 0, _, _ => none
  | bound + 1, done, text => do
      let (item, rest) ← readValue bound text
      match skipSpace rest with
      | ',' :: more => readItems bound (item :: done) more
      | ']' :: more => some (array (item :: done).reverse, more)
      | _ => none

def readMembers : Nat → List (Name × Json) → List Char → Option (Json × List Char)
  | 0, _, _ => none
  | bound + 1, done, text =>
      match skipSpace text with
      | '"' :: rest => do
          let (name, rest) ← readName rest
          match skipSpace rest with
          | ':' :: rest =>
              let (value, rest) ← readValue bound rest
              match skipSpace rest with
              | ',' :: more => readMembers bound ((name, value) :: done) more
              | '\x7d' :: more => some (object ((name, value) :: done).reverse, more)
              | _ => none
          | _ => none
      | _ => none

end

/-- A text may start with what stands between values. -/
def dropSeparator (text : List Char) : List Char :=
  match skipSpace text with
  | ',' :: rest => rest
  | ':' :: rest => rest
  | rest => rest

def ofText? (text : String) : Option Json :=
  (readValue (text.toList.length + 1) (dropSeparator text.toList)).map Prod.fst

end Json

end SchemaStubs.Document
