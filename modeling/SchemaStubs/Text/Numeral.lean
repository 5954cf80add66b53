import SchemaStubs.Text.Quoted

/-!
Whole numbers of 64 bits as users write them: decimal, or with a mark of their base in front, and
with single underscores between digits. A leading zero marks the base eight.
-/

namespace SchemaStubs.Text

inductive NumeralFault where
  | malformed
  | outOfRange
  deriving DecidableEq, Repr

def NumeralFault.text : NumeralFault → String
  | malformed => "invalid syntax"
  | outOfRange => "value out of range"

/-- The base of a number without a sign, its digits, and whether a mark of the base stood before
them. -/
def baseOf : List Char → Nat × List Char × Bool
  | '0' :: mark :: digit :: rest =>
      if mark == 'x' || mark == 'X' then (16, digit :: rest, true)
      else if mark == 'b' || mark == 'B' then (2, digit :: rest, true)
      else if mark == 'o' || mark == 'O' then (8, digit :: rest, true)
      else (8, mark :: digit :: rest, true)
  | '0' :: rest => (8, rest, true)
  | digits => (10, digits, false)

/-- The value of the digits, read from the left: the first character that is no digit, or the first
digit that no word of 64 bits can take in, decides the fault. Underscores are passed over. -/
def valueOf (base : Nat) : Nat → List Char → Except NumeralFault Nat
  | value, [] => .ok value
  | value, c :: rest =>
      if c == '_' then valueOf base value rest
      else match hexValue c with
        | none => .error .malformed
        | some digit =>
            if digit < base then
              if value * base + digit < UInt64.size then valueOf base (value * base + digit) rest
              else .error .outOfRange
            else .error .malformed

/-- An underscore stands between two digits, or between the mark of the base and a digit. -/
def separated (digits : List Char) (marked : Bool) : Bool :=
  let groups := digits.splitOn '_'
  let inner := if marked then groups.drop 1 else groups
  digits.isEmpty || inner.all (!·.isEmpty)

def magnitude (text : List Char) : Except NumeralFault Nat := do
  if text.isEmpty then .error .malformed
  let (base, digits, marked) := baseOf text
  let value ← valueOf base 0 digits
  if separated digits marked then .ok value else .error .malformed

def fitsWord (value : Int) : Bool :=
  -9223372036854775808 ≤ value && value < 9223372036854775808

def readInteger (text : String) : Except NumeralFault Int := do
  let (negative, digits) :=
    match text.toList with
    | '-' :: rest => (true, rest)
    | '+' :: rest => (false, rest)
    | rest => (false, rest)
  let value ← magnitude digits
  let signed := if negative then -Int.ofNat value else value
  if fitsWord signed then .ok signed else .error .outOfRange

def readBool? (text : String) : Option Bool :=
  if text ∈ ["1", "t", "T", "true", "TRUE", "True"] then some true
  else if text ∈ ["0", "f", "F", "false", "FALSE", "False"] then some false
  else none

end SchemaStubs.Text
