import SchemaStubs.Journal.Console
import SchemaStubs.Journal.Json

/-!
How a journal is written: as lines for a console or as JSON, and from which level on.
-/

namespace SchemaStubs.Journal

structure Style where
  json : Bool := false
  coloured : Bool := false
  least : Level := .warn
  deriving DecidableEq, Repr, Inhabited

namespace Style

/-- What is written of an entry: nothing below the least level. -/
def line (style : Style) (seconds : Int) (entry : Entry) : String :=
  if !entry.level.reaches style.least then ""
  else if style.json then Json.line seconds entry
  else Console.line style.coloured seconds {} entry

def text (style : Style) (seconds : Int) (entries : List Entry) : String :=
  Text.concat (entries.map (style.line seconds))

/-- What is written of a message with keys and values in turn. Below the least level nothing is
said about a key without a value either. -/
def message (style : Style) (seconds : Int) (level : Level) (component message : String)
    (pairs : List String) : String :=
  if level.reaches style.least then
    style.text seconds (entriesOf level component message pairs)
  else ""

end Style

end SchemaStubs.Journal
