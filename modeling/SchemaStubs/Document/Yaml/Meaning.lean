import SchemaStubs.Decimal.Double
import SchemaStubs.Document.Yaml.Basic
import SchemaStubs.Text.Join
import SchemaStubs.Text.Octets
import SchemaStubs.Text.Quoted

/-!
What a YAML scalar stands for. A tag says what it has to stand for; without one, a plain scalar may
stand for nothing, for a truth value or for a number, and any other scalar stands for its text.
-/

namespace SchemaStubs.Document.Yaml

inductive Meaning where
  | nothing
  | flag (value : Bool)
  | integer (value : Int)
  | fraction (value : Decimal.Double)
  | moment
  | text (content : String)
  deriving DecidableEq, Repr, Inhabited

def Meaning.tag : Meaning → String
  | nothing => "!!null"
  | flag _ => "!!bool"
  | integer _ => "!!int"
  | fraction _ => "!!float"
  | moment => "!!timestamp"
  | text _ => "!!str"

def wordMeaning? (text : String) : Option Meaning :=
  if text ∈ ["", "~", "null", "Null", "NULL"] then some .nothing
  else if text ∈ ["true", "True", "TRUE"] then some (.flag true)
  else if text ∈ ["false", "False", "FALSE"] then some (.flag false)
  else if text ∈ [".nan", ".NaN", ".NAN"] then some (.fraction .undefined)
  else if text ∈ [".inf", ".Inf", ".INF", "+.inf", "+.Inf", "+.INF"] then
    some (.fraction (.infinite false))
  else if text ∈ ["-.inf", "-.Inf", "-.INF"] then some (.fraction (.infinite true))
  else none

def digitIn (base : Nat) (c : Char) : Option Nat := do
  let value ← Text.hexValue c
  if value < base then some value else none

def naturalIn (base : Nat) (digits : List Char) : Option Nat := do
  if digits.isEmpty then none
  digits.foldlM (fun value c => (digitIn base c).map (value * base + ·)) 0

/-- A natural number in the base its start names. -/
def natural : List Char → Option Nat
  | '0' :: 'x' :: digits => naturalIn 16 digits
  | '0' :: 'X' :: digits => naturalIn 16 digits
  | '0' :: 'o' :: digits => naturalIn 8 digits
  | '0' :: 'O' :: digits => naturalIn 8 digits
  | '0' :: 'b' :: digits => naturalIn 2 digits
  | '0' :: 'B' :: digits => naturalIn 2 digits
  | '0' :: c :: digits => naturalIn 8 (c :: digits)
  | digits => naturalIn 10 digits

inductive Sign where
  | none
  | plus
  | minus
  deriving DecidableEq, Repr

def splitSign : List Char → Sign × List Char
  | '-' :: rest => (.minus, rest)
  | '+' :: rest => (.plus, rest)
  | rest => (.none, rest)

/-- A whole number of 64 bits; with a sign, one of the bits is for the sign. -/
def integer? (text : List Char) : Option Int := do
  let (sign, digits) := splitSign text
  let value ← natural digits
  match sign with
  | .none => if value < UInt64.size then some value else none
  | .plus => if value < UInt64.size / 2 then some value else none
  | .minus => if value ≤ UInt64.size / 2 then some (-Int.ofNat value) else none

def exponent? : List Char → Option Int
  | [] => some 0
  | mark :: rest =>
      if mark == 'e' || mark == 'E' then
        let (sign, digits) := splitSign rest
        (naturalIn 10 digits).map fun value => if sign = .minus then -Int.ofNat value else value
      else none

/-- A decimal fraction: digits with a point before, between or after them, and an exponent. -/
def fraction? (text : List Char) : Option Decimal.Double := do
  let (sign, body) := splitSign text
  let whole := body.takeWhile Char.isDigit
  let rest := body.drop whole.length
  let (places, rest) := match rest with
    | '.' :: more => (more.takeWhile Char.isDigit, more.dropWhile Char.isDigit)
    | more => ([], more)
  let coefficient ← naturalIn 10 (whole ++ places)
  let exponent ← exponent? rest
  let magnitude ← Decimal.Binary.ofDecimal? coefficient (exponent - places.length)
  some (.finite (sign = .minus) magnitude)

/-- Whether every underscore stands between two digits. -/
def underscoresSeparate (text : List Char) : Bool :=
  let groups := text.splitOn '_'
  groups.dropLast.all (fun group => group.getLast?.any Char.isDigit) &&
    groups.tail.all fun group => group.head?.any Char.isDigit

def withoutUnderscores (text : List Char) : List Char :=
  text.filter fun c => c != '_'

/-- The number that a plain scalar stands for. Underscores in a number that starts with a sign or a
digit are ignored. -/
def numberMeaning? (text : List Char) : Option Meaning :=
  match text with
  | '.' :: _ =>
      if underscoresSeparate text then (fraction? (withoutUnderscores text)).map .fraction else none
  | c :: _ =>
      if c.isDigit || c == '+' || c == '-' then
        let digits := withoutUnderscores text
        match integer? digits with
        | some value => some (.integer value)
        | none => (fraction? digits).map .fraction
      else none
  | [] => none

/-- Whether a text starts like a date: with a year of four digits. -/
def startsDate (text : List Char) : Bool :=
  (text.takeWhile Char.isDigit).length == 4 && (text.drop 4).head? == some '-'

def plainMeaning (text : String) : Meaning :=
  match wordMeaning? text with
  | some meaning => meaning
  | none => (numberMeaning? text.toList).getD (.text text)

def mergeWord : String :=
  "<<"

namespace Scalar

/-- A scalar with a tag stands for what the tag says, if its text can; a whole number can stand for
a fraction. -/
def taggedMeaning? (scalar : Scalar) (tag : String) : Option Meaning :=
  if tag == "!!str" then some (.text scalar.text)
  else if tag == "!!binary" then do
    let bytes ← Text.base64Bytes scalar.text
    some (.text (String.ofList ((Text.pieces bytes).map Text.Piece.shown)))
  else if tag == "!!timestamp" && startsDate scalar.text.toList then some .moment
  else
    let meaning := plainMeaning scalar.text
    if meaning.tag == tag then some meaning
    else match meaning with
      | .integer value =>
          if tag == "!!float" && value < UInt64.size / 2 then do
            let magnitude ← Decimal.Binary.ofDecimal? value.natAbs 0
            some (.fraction (.finite (value < 0) magnitude))
          else none
      | _ => none

def meaning? (scalar : Scalar) : Option Meaning :=
  match scalar.tag with
  | some tag => scalar.taggedMeaning? tag
  | none =>
      if !scalar.plain then some (.text scalar.text)
      else if scalar.text == mergeWord then none
      else some (plainMeaning scalar.text)

/-- Whether the scalar asks for the values of other mappings as a key. -/
def isMerge (scalar : Scalar) : Bool :=
  scalar.text == mergeWord &&
    match scalar.tag with
    | some tag => tag == "!!merge"
    | none => scalar.plain

/-- Whether the scalar stands for nothing, or is said to. -/
def isNothing (scalar : Scalar) : Bool :=
  match scalar.tag with
  | some tag => tag == "!!null"
  | none => scalar.plain && wordMeaning? scalar.text == some .nothing

end Scalar

end SchemaStubs.Document.Yaml
