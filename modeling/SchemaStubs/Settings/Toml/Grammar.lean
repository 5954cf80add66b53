import SchemaStubs.Decimal.Double

/-!
The values of a TOML file, the statements it is made of, and the two readings of the format. Of dates
and times only that they are there is kept: no setting takes them. The strict reading holds wherever
settings are taken from a file. The lenient one is for looking over the keys of a file; it also knows
what later editions of the format allow.
-/

namespace SchemaStubs.Settings.Toml

abbrev Key := List String

inductive Value where
  | text (content : String)
  | integer (value : Int)
  | bool (value : Bool)
  | number (value : Decimal.Double)
  /-- A date, a time or both. -/
  | moment
  | array (items : List Value)
  | table (members : List (Key × Value))
  deriving Repr, Inhabited

inductive Statement where
  /-- Opens a table. -/
  | table (key : Key)
  /-- Opens the next table of an array. -/
  | item (key : Key)
  | assign (key : Key) (value : Value)
  deriving Repr, Inhabited

structure Grammar where
  /-- Whether an escape may give a character by two digits. -/
  shortEscapes : Bool
  /-- Whether a table between braces may run over lines, hold comments and end in a comma. -/
  looseTables : Bool
  /-- Whether a time may leave out its seconds. -/
  shortTimes : Bool
  /-- The last second of a minute. -/
  lastSecond : Nat
  /-- The largest hour and the largest minute of an offset. -/
  lastOffset : Nat × Nat
  /-- Whether a file may start with a byte order mark. -/
  skipsMark : Bool
  deriving DecidableEq, Repr, Inhabited

namespace Grammar

def strict : Grammar where
  shortEscapes := false
  looseTables := false
  shortTimes := false
  lastSecond := 60
  lastOffset := (23, 59)
  skipsMark := false

def lenient : Grammar where
  shortEscapes := true
  looseTables := true
  shortTimes := true
  lastSecond := 59
  lastOffset := (24, 60)
  skipsMark := true

end Grammar

end SchemaStubs.Settings.Toml
