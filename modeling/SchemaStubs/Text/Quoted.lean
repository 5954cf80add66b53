import SchemaStubs.Text.Join
import SchemaStubs.Text.Octets
import SchemaStubs.Text.Printable

/-!
Quoted texts: the form in which a message shows a name, and reading a quoted token back. A quoted
text stands between double quotes; the quote and the backslash are escaped, and so is everything
unprintable, by a letter where one exists and by its code point otherwise, and every stray byte.
Reading also takes text between back quotes as it stands and a single character between apostrophes;
since an escape may name a byte, it gives bytes. In a JSON string the quote, the backslash and the
control characters are always escaped, and a writer may ask for more.
-/

namespace SchemaStubs.Text

def hexDigit (value : Nat) : Char :=
  if value < 10 then Char.ofNat (48 + value) else Char.ofNat (87 + value)

def hexPadded : Nat → Nat → List Char
  | 0, _ => []
  | width + 1, value => hexPadded width (value / 16) ++ [hexDigit (value % 16)]

def hexValue (c : Char) : Option Nat :=
  let code := c.toNat
  if 48 ≤ code && code ≤ 57 then some (code - 48)
  else if 97 ≤ code && code ≤ 102 then some (code - 87)
  else if 65 ≤ code && code ≤ 70 then some (code - 55)
  else none

def apostrophe : Char :=
  Char.ofNat 39

def escapeLetter (code : Nat) : Option Char :=
  match code with
  | 7 => some 'a'
  | 8 => some 'b'
  | 12 => some 'f'
  | 10 => some 'n'
  | 13 => some 'r'
  | 9 => some 't'
  | 11 => some 'v'
  | _ => none

def quoteChar (c : Char) : List Char :=
  if c == '"' || c == '\\' then ['\\', c]
  else if isPrintable c then [c]
  else match escapeLetter c.toNat with
    | some letter => ['\\', letter]
    | none =>
        if c.toNat < 128 then '\\' :: 'x' :: hexPadded 2 c.toNat
        else if c.toNat < 0x10000 then '\\' :: 'u' :: hexPadded 4 c.toNat
        else '\\' :: 'U' :: hexPadded 8 c.toNat

def quote (text : String) : String :=
  String.ofList ('"' :: text.toList.flatMap quoteChar ++ ['"'])

def quotePiece : Piece → List Char
  | .char c => quoteChar c
  | .stray byte => '\\' :: 'x' :: hexPadded 2 byte.toNat

def quotePieces (text : List Piece) : String :=
  String.ofList ('"' :: text.flatMap quotePiece ++ ['"'])

/-- Angle quotes set off the parts of a message that must not leave the machine, so inside a message
a question mark stands for each. -/
def withoutMarks (text : String) : String :=
  String.ofList (text.toList.map fun c => if c == '‹' || c == '›' then '?' else c)

def hexNumber (digits : List Char) : Option Nat :=
  digits.foldlM (fun value c => (hexValue c).map (value * 16 + ·)) 0

def octalNumber (digits : List Char) : Option Nat :=
  digits.foldlM (fun value c =>
    if 48 ≤ c.toNat && c.toNat ≤ 55 then some (value * 8 + (c.toNat - 48)) else none) 0

/-- The character a code point escape of `width` digits stands for, and what follows it. -/
def readCode (width : Nat) (text : List Char) : Option (Char × List Char) := do
  if text.length < width then none
  let code ← hexNumber (text.take width)
  if code.isValidChar then some (Char.ofNat code, text.drop width) else none

def byteOf? (code : Nat) : Option (List UInt8) :=
  if code < 256 then some [UInt8.ofNat code] else none

def control (code : Nat) (rest : List Char) : Option (List UInt8 × List Char) :=
  some ([UInt8.ofNat code], rest)

/-- What an escape stands for, and what follows it. `mark` is the quote in use, which is the only
one that may be escaped. -/
def readEscape (mark : Char) : List Char → Option (List UInt8 × List Char)
  | [] => none
  | c :: rest =>
      if c == 'a' then control 7 rest
      else if c == 'b' then control 8 rest
      else if c == 'f' then control 12 rest
      else if c == 'n' then control 10 rest
      else if c == 'r' then control 13 rest
      else if c == 't' then control 9 rest
      else if c == 'v' then control 11 rest
      else if c == 'x' then do
        if rest.length < 2 then none
        let byte ← byteOf? (← hexNumber (rest.take 2))
        some (byte, rest.drop 2)
      else if c == 'u' then (readCode 4 rest).map fun (c, after) => (utf8 c, after)
      else if c == 'U' then (readCode 8 rest).map fun (c, after) => (utf8 c, after)
      else if c == '\\' || c == mark then some (utf8 c, rest)
      else if 48 ≤ c.toNat && c.toNat ≤ 55 then do
        if rest.length < 2 then none
        let byte ← byteOf? (← octalNumber (c :: rest.take 2))
        some (byte, rest.drop 2)
      else none

def readQuotedChar (mark : Char) : List Char → Option (List UInt8 × List Char)
  | [] => none
  | c :: rest =>
      if c == mark || c == '\n' then none
      else if c == '\\' then readEscape mark rest
      else some (utf8 c, rest)

/-- The bytes up to the closing double quote, which must be the last character. The first argument
bounds the number of characters read. -/
def readQuoted : Nat → List Char → Option (List UInt8)
  | 0, _ => none
  | _ + 1, ['"'] => some []
  | bound + 1, text => do
      let (bytes, rest) ← readQuotedChar '"' text
      let more ← readQuoted bound rest
      some (bytes ++ more)

/-- What stands between apostrophes: one character, or nothing. -/
def readSingle (text : List Char) : Option (List UInt8) :=
  if text == [apostrophe] then some []
  else match readQuotedChar apostrophe text with
    | some (bytes, [last]) => if last == apostrophe then some bytes else none
    | _ => none

def unquoteBytes : List Char → Option (List UInt8)
  | [] => none
  | mark :: rest =>
      if mark == '"' then readQuoted (rest.length + 1) rest
      else if mark == Char.ofNat 96 then
        match rest.reverse with
        | last :: inner =>
            if last == mark && !inner.contains mark then
              some ((inner.reverse.filter fun c => c != '\r').flatMap utf8)
            else none
        | [] => none
      else if mark == apostrophe then readSingle rest
      else none

def unquote (token : String) : Option (List Piece) :=
  (unquoteBytes token.toList).map pieces

def jsonChar (asked : Char → Bool) (c : Char) : List Char :=
  if c == '"' || c == '\\' then ['\\', c]
  else if c == '\n' then ['\\', 'n']
  else if c == '\r' then ['\\', 'r']
  else if c == '\t' then ['\\', 't']
  else if c.toNat < 32 || asked c then '\\' :: 'u' :: hexPadded 4 c.toNat
  else [c]

def jsonStringWith (asked : Char → Bool) (text : String) : String :=
  String.ofList ('"' :: text.toList.flatMap (jsonChar asked) ++ ['"'])

def jsonString (text : String) : String :=
  jsonStringWith (fun _ => false) text

def jsonStringForMarkup (text : String) : String :=
  jsonStringWith (fun c => c == '<' || c == '>' || c == '&' || c.toNat == 0x2028 ||
    c.toNat == 0x2029) text

end SchemaStubs.Text
