import SchemaStubs.Settings.Toml.Moment
import SchemaStubs.Settings.Toml.Grammar
import SchemaStubs.Text.Numeral

/-!
The scalars of a TOML file: strings in four styles, whole numbers in four bases, numbers with a
fraction, truth values, dates and times.
-/

namespace SchemaStubs.Settings.Toml

def isBlank (c : Char) : Bool :=
  c == ' ' || c == '\t'

/-- Control characters other than tabs stand in no string and no comment. -/
def isControl (c : Char) : Bool :=
  (c.toNat < 32 && c != '\t') || c.toNat == 127

def skipBlanks (text : List Char) : List Char :=
  text.dropWhile isBlank

def readEscape (grammar : Grammar) : List Char → Option (Char × List Char)
  | 'b' :: rest => some (Char.ofNat 8, rest)
  | 't' :: rest => some ('\t', rest)
  | 'n' :: rest => some ('\n', rest)
  | 'f' :: rest => some (Char.ofNat 12, rest)
  | 'r' :: rest => some ('\r', rest)
  | 'e' :: rest => some (Char.ofNat 27, rest)
  | '"' :: rest => some ('"', rest)
  | '\\' :: rest => some ('\\', rest)
  | 'x' :: rest => if grammar.shortEscapes then Text.readCode 2 rest else none
  | 'u' :: rest => Text.readCode 4 rest
  | 'U' :: rest => Text.readCode 8 rest
  | _ => none

def readBasic (grammar : Grammar) : Nat → List Char → Option (List Char × List Char)
  | _, '"' :: rest => some ([], rest)
  | bound + 1, '\\' :: rest => do
      let (c, more) ← readEscape grammar rest
      let (content, after) ← readBasic grammar bound more
      some (c :: content, after)
  | bound + 1, c :: rest => do
      if isControl c then none
      let (content, after) ← readBasic grammar bound rest
      some (c :: content, after)
  | _, _ => none

def readLiteral : List Char → Option (List Char × List Char)
  | [] => none
  | c :: rest =>
      if c == Text.apostrophe then some ([], rest)
      else if isControl c then none
      else (readLiteral rest).map fun (content, after) => (c :: content, after)

/-- The line end right after the opening quotes of a string of several lines does not count. -/
def dropLineEnd : List Char → List Char
  | '\n' :: rest => rest
  | '\r' :: '\n' :: rest => rest
  | rest => rest

/-- The closing quotes of a string of several lines. Up to two quotes before them belong to it. -/
def closing? (mark : Char) (text : List Char) : Option (List Char × List Char) :=
  let quotes := (text.takeWhile fun c => c == mark).length
  if quotes < 3 then none
  else
    let kept := min (quotes - 3) 2
    some (List.replicate kept mark, text.drop (kept + 3))

def endsLine (text : List Char) : Bool :=
  match skipBlanks text with
  | '\n' :: _ => true
  | '\r' :: '\n' :: _ => true
  | _ => false

def isSpace (c : Char) : Bool :=
  isBlank c || c == '\n' || c == '\r'

/-- A string of several lines; only between double quotes does it have escapes, and there a
backslash at the end of a line takes the line end and the blanks after it away. -/
def readLong (grammar : Grammar) (mark : Char) : Nat → List Char →
    Option (List Char × List Char)
  | 0, _ => none
  | bound + 1, text =>
      match closing? mark text with
      | some found => some found
      | none =>
          match text with
          | [] => none
          | c :: rest =>
              if c == '\\' && mark == '"' then
                if endsLine rest then readLong grammar mark bound (rest.dropWhile isSpace)
                else do
                  let (escaped, more) ← readEscape grammar rest
                  let (content, after) ← readLong grammar mark bound more
                  some (escaped :: content, after)
              else if isControl c && c != '\n' && c != '\r' then none
              else do
                let (content, after) ← readLong grammar mark bound rest
                some (c :: content, after)

def readText (grammar : Grammar) (text : List Char) : Option (String × List Char) :=
  let found :=
    match text with
    | '"' :: '"' :: '"' :: rest => readLong grammar '"' (rest.length + 1) (dropLineEnd rest)
    | '"' :: rest => readBasic grammar rest.length rest
    | mark :: rest =>
        if mark != Text.apostrophe then none
        else if [mark, mark].isPrefixOf rest then
          readLong grammar mark (rest.length + 1) (dropLineEnd (rest.drop 2))
        else readLiteral rest
    | [] => none
  found.map fun (content, after) => (String.ofList content, after)

def digitValue (base : Nat) (c : Char) : Option Nat := do
  let value ← Text.hexValue c
  if value < base then some value else none

/-- The value of digits in which single underscores may stand between two digits. -/
def numeral (base : Nat) (digits : List Char) : Option Nat := do
  let groups := digits.splitOn '_'
  if groups.any List.isEmpty then none
  groups.flatten.foldlM (fun value c => (digitValue base c).map (value * base + ·)) 0

/-- Decimal digits without needless zeros. -/
def decimal (digits : List Char) : Option Nat :=
  match digits with
  | '0' :: _ :: _ => none
  | _ => numeral 10 digits

def integer (token : List Char) : Option Int := do
  let value : Int ← match token with
    | '0' :: 'x' :: digits => (numeral 16 digits).map Int.ofNat
    | '0' :: 'o' :: digits => (numeral 8 digits).map Int.ofNat
    | '0' :: 'b' :: digits => (numeral 2 digits).map Int.ofNat
    | '+' :: digits => (decimal digits).map Int.ofNat
    | '-' :: digits => (decimal digits).map fun value => -Int.ofNat value
    | digits => (decimal digits).map Int.ofNat
  if Text.fitsWord value then some value else none

def dropSign : List Char → List Char
  | '+' :: rest => rest
  | '-' :: rest => rest
  | rest => rest

def isNegative (token : List Char) : Bool :=
  token.head? == some '-'

def signed (token : List Char) (value : Nat) : Int :=
  if isNegative token then -Int.ofNat value else value

/-- A number with a fraction or an exponent; none that is too large for a double. -/
def number (token : List Char) : Option Decimal.Double := do
  let body := dropSign token
  let mantissa := body.takeWhile fun c => c != 'e' && c != 'E'
  let whole := mantissa.takeWhile fun c => c != '.'
  let places := (mantissa.drop whole.length).drop 1
  let exponent := (body.drop mantissa.length).drop 1
  if body.length = whole.length then none
  let left ← decimal whole
  let right ← if mantissa.length = whole.length then some 0 else numeral 10 places
  let shift ← if body.length = mantissa.length then some 0 else numeral 10 (dropSign exponent)
  let count := (places.filter fun c => c != '_').length
  let magnitude ← Decimal.Binary.ofDecimal? (left * Nat.pow 10 count + right)
    (signed exponent shift - count)
  some (.finite (isNegative token) magnitude)

def special (token : List Char) : Option Decimal.Double :=
  let body := dropSign token
  if body == "inf".toList then some (.infinite (isNegative token))
  else if body == "nan".toList then some .undefined
  else none

def isTokenEnd (c : Char) : Bool :=
  isSpace c || c == ',' || c == ']' || c == '\x7d' || c == '#'

/-- The characters of an unquoted scalar. The blank between a date and a time belongs to it. -/
def token (text : List Char) : List Char :=
  let first := text.takeWhile fun c => !isTokenEnd c
  match text.drop first.length with
  | ' ' :: digit :: rest =>
      if afterDate first == some [] && digit.isDigit then
        first ++ ' ' :: digit :: rest.takeWhile fun c => !isTokenEnd c
      else first
  | _ => first

def readToken (grammar : Grammar) (text : List Char) : Option (Value × List Char) :=
  let found := token text
  let value :=
    if found == "true".toList then some (.bool true)
    else if found == "false".toList then some (.bool false)
    else if isMoment grammar found then some .moment
    else (integer found).map Value.integer <|> (number found <|> special found).map Value.number
  value.map fun value => (value, text.drop found.length)

end SchemaStubs.Settings.Toml
