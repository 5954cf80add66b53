import SchemaStubs.Decimal.Shortest
import SchemaStubs.Settings.Basic
import SchemaStubs.Settings.Toml.Node
import SchemaStubs.Text.Numeral

/-!
The keys of the settings: their sections and names, the environment variables that go by them, and
what kind of value each takes. A value need not be of that kind exactly: numbers, truth values and
texts stand for each other where one can be read as the other.
-/

namespace SchemaStubs.Settings

inductive Kind where
  | text
  | bool
  | integer
  deriving DecidableEq, Repr

inductive Key where
  | outputDirectory
  | suffix
  | typedMarker
  | header
  | format
  | jsonLog
  | level
  | debounce
  deriving DecidableEq, Repr

namespace Key

def all : List Key :=
  [outputDirectory, suffix, typedMarker, header, format, jsonLog, level, debounce]

def table : Key → String
  | outputDirectory | suffix | typedMarker | header => "output"
  | format => "input"
  | jsonLog | level => "log"
  | debounce => "watch"

def name : Key → String
  | outputDirectory => "dir"
  | suffix => "suffix"
  | typedMarker => "py_typed"
  | header => "header"
  | format => "format"
  | jsonLog => "json"
  | level => "level"
  | debounce => "debounce_ms"

def path (key : Key) : List String :=
  [key.table, key.name]

def kind : Key → Kind
  | outputDirectory | suffix | format | level => .text
  | typedMarker | header | jsonLog => .bool
  | debounce => .integer

def tables : List String :=
  (all.map table).eraseDups

def variableName (path : List String) : String :=
  String.ofList (("stubgen_" ++ Text.joinWith "_" path).toList.map Char.toUpper)

end Key

inductive Given where
  | absent
  | text (content : String)
  | integer (value : Int)
  | bool (value : Bool)
  | number (value : Decimal.Double)
  | unfit
  deriving DecidableEq, Repr, Inhabited

namespace Given

def asText? : Given → Option String
  | absent => some ""
  | text content => some content
  | integer value => some (toString value)
  | bool value => some (if value then "1" else "0")
  | number value => some value.text
  | unfit => none

def asBool? : Given → Option Bool
  | absent => some false
  | text content => if content == "" then some false else Text.readBool? content
  | integer value => some (value != 0)
  | bool value => some value
  | number value => some !value.isZero
  | unfit => none

def asInteger? : Given → Option Int
  | absent => some 0
  | text content => if content == "" then some 0 else (Text.readInteger content).toOption
  | integer value => some value
  | bool value => some (if value then 1 else 0)
  | number value => some value.word
  | unfit => none

def ofValue : Toml.Value → Given
  | .text content => .text content
  | .integer value => .integer value
  | .bool value => .bool value
  | .number value => .number value
  | .moment | .array _ | .table _ => .unfit

def isOf : Given → Kind → Bool
  | text _, .text => true
  | integer _, .integer => true
  | bool _, .bool => true
  | _, _ => false

end Given

end SchemaStubs.Settings
