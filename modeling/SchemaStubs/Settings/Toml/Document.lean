import SchemaStubs.Settings.Toml.Node
import SchemaStubs.Settings.Toml.Reader
import SchemaStubs.Table

/-!
What a TOML file defines. Every table is opened once, every key is set once, and a table that dotted
keys made is not opened by a header. The tables of an array are told apart by their number, so a key
is followed to a place.
-/

namespace SchemaStubs.Settings.Toml

/-- A name on the way to a value, with the number of the table if the name stands for an array of
tables. -/
abbrev Place := List (String × Option Nat)

structure Definitions where
  /-- The tables opened by a header. -/
  headers : List Place := []
  /-- The tables made by dotted keys. -/
  dotted : List Place := []
  values : List Place := []
  /-- The arrays of tables and how many tables they have. -/
  arrays : Table Place Nat := {}
  /-- The table that assignments go to. -/
  current : Place := []
  deriving Inhabited

namespace Definitions

/-- Whether a header opened the table at a place or a table below it. -/
def isOpened (found : Definitions) (place : Place) : Bool :=
  found.headers.any fun header => place.isPrefixOf header

def isDefined (found : Definitions) (place : Place) : Bool :=
  found.values.contains place || found.isOpened place || found.dotted.contains place ||
    found.arrays.contains place

/-- Goes one name down. A name that stands for an array leads to its last table. -/
def enter (found : Definitions) (place : Place) (name : String) : Option Place :=
  let next := place ++ [(name, none)]
  if found.values.contains next then none
  else match found.arrays.get? next with
    | some count => some (place ++ [(name, some (count - 1))])
    | none => some next

def parent (found : Definitions) (key : Key) : Option (Place × String) := do
  let last ← key.getLast?
  let place ← key.dropLast.foldlM found.enter []
  some (place, last)

def openTable (found : Definitions) (key : Key) : Option Definitions := do
  let (place, name) ← found.parent key
  let opened := place ++ [(name, none)]
  if found.headers.contains opened || found.values.contains opened ||
      found.dotted.contains opened || found.arrays.contains opened then none
  else some { found with headers := found.headers ++ [opened], current := opened }

def openItem (found : Definitions) (key : Key) : Option Definitions := do
  let (place, name) ← found.parent key
  let array := place ++ [(name, none)]
  let count ← match found.arrays.get? array with
    | some count => some count
    | none => if found.isDefined array then none else some 0
  let opened := place ++ [(name, some count)]
  some { found with
    headers := found.headers ++ [opened]
    arrays := found.arrays.set array (count + 1)
    current := opened }

/-- Makes the tables of a dotted key. A table that a header opened is none of them, but one that
headers only lead through may be. -/
def descend (found : Definitions) (place : Place) : Key → Option (Definitions × Place)
  | [] => none
  | [name] => some (found, place ++ [(name, none)])
  | name :: rest =>
      let next := place ++ [(name, none)]
      if found.values.contains next || found.headers.contains next ||
          found.arrays.contains next then none
      else if found.isDefined next then descend found next rest
      else descend { found with dotted := found.dotted ++ [next] } next rest

def assign (found : Definitions) (key : Key) : Option Definitions := do
  let (reached, place) ← found.descend found.current key
  if reached.isDefined place then none
  else some { reached with values := reached.values ++ [place] }

def add (found : Definitions) : Statement → Option Definitions
  | .table key => found.openTable key
  | .item key => found.openItem key
  | .assign key _ => found.assign key

end Definitions

mutual

/-- Whether the tables between braces inside a value set every key once. -/
def isDistinct : Value → Bool
  | .array items => areDistinct items
  | .table members => membersDistinct {} members
  | _ => true

def areDistinct : List Value → Bool
  | [] => true
  | item :: rest => isDistinct item && areDistinct rest

def membersDistinct (found : Definitions) : List (Key × Value) → Bool
  | [] => true
  | (key, value) :: rest =>
      match found.assign key with
      | none => false
      | some next => isDistinct value && membersDistinct next rest

end

def Statement.isDistinct : Statement → Bool
  | .assign _ value => Toml.isDistinct value
  | _ => true

/-- Adds what a statement defines to the tables of a file; the key is that of the table that
assignments go to. -/
def place (state : Key × Members) : Statement → Option (Key × Members)
  | .table key => (update some key state.2).map fun members => (key, members)
  | .item key => (addItem state.2 key).map fun members => (key, members)
  | .assign key value => do
      let node ← Node.ofValue? value
      let members ← putAt state.2 (state.1 ++ key) node
      some (state.1, members)

/-- The tables of a text, if it is well formed and defines nothing twice. -/
def members? (text : String) : Option Members := do
  let found ← statements .strict text
  let _ ← found.foldlM Definitions.add {}
  if !found.all Statement.isDistinct then none
  let (_, members) ← found.foldlM place ([], [])
  some members

end SchemaStubs.Settings.Toml
