import SchemaStubs.Settings.Toml.Node
import SchemaStubs.Settings.Toml.Reader

/-!
The keys that a TOML file mentions, in order, and the tables they make. A name can be given again in
two cases only: after it was made on the way to another key, and then it keeps what it stands for,
or when its last value was an array, and then it stands for the new value.
-/

namespace SchemaStubs.Settings.Toml

def Value.isArray : Value → Bool
  | .array _ => true
  | _ => false

structure Outline where
  members : Members := []
  /-- The keys that were made on the way to others. -/
  implied : List Key := []
  /-- The keys whose last value was an array. -/
  arrays : List Key := []
  keys : List Key := []
  deriving Inhabited

namespace Outline

def imply (outline : Outline) (key : Key) : Outline :=
  { outline with implied := outline.implied.insert key }

/-- Records whether the last value of a name was an array. Without a name the table itself is
meant. -/
def mark (outline : Outline) (table : Key) (name : String) (isArray : Bool) : Outline :=
  let full := if name == "" then table else table ++ [name]
  let key := if full.isEmpty then [""] else full
  { outline with
    arrays := if isArray then outline.arrays.insert key else outline.arrays.erase key }

def set (outline : Outline) (table : Key) (name : String) (node : Node) : Option Outline := do
  let key := table ++ [name]
  let inner ← follow table outline.members
  let members ← putAt outline.members key node
  if (inner.lookup name).isNone then some { outline with members }
  else
    let settled := { outline with implied := outline.implied.erase key }
    if outline.arrays.contains key then some { settled with members }
    else if outline.implied.contains key then some settled
    else none

def pass (outline : Outline) (key : Key) : Option Outline := do
  let name ← key.getLast?
  let inner ← follow key.dropLast outline.members
  match inner.lookup name with
  | none => do
      let members ← putAt outline.members key (.table [])
      some { outline.imply key with members }
  | some (.value _) => none
  | some _ => some outline

/-- The proper starts of a key that have a name, from the shortest on. -/
def starts (key : Key) : List Key :=
  (List.range (key.length - 1)).map fun count => key.take (count + 1)

def openTable (outline : Outline) (key : Key) : Option Outline := do
  let name ← key.getLast?
  let reached ← (starts key).foldlM pass outline
  reached.set key.dropLast name (.table [])

def openItem (outline : Outline) (key : Key) : Option Outline := do
  let reached ← (starts key).foldlM pass outline
  let members ← addItem reached.members key
  some { reached with members }

def openStarts (outline : Outline) (table key : Key) : Option Outline :=
  (starts key).foldlM (fun found start => (found.imply (table ++ start)).openTable (table ++ start))
    outline

mutual

def enter (table : Key) (name : String) (listed : Bool) : Value → Outline → Option Outline
  | .array items, outline => enterItems table name items (outline.mark table name true)
  | .table members, outline => do
      let key := table ++ [name]
      let opened ←
        if listed then (outline.imply key).openItem key else (outline.imply key).openTable key
      let _ ← membersOf? [] members
      enterMembers key members opened
  | _, outline => some outline

def enterItems (table : Key) (name : String) : List Value → Outline → Option Outline
  | [], outline => some outline
  | item :: rest, outline => do
      let next ← enter table name true item outline
      enterItems table name rest next

def enterMembers (table : Key) : List (Key × Value) → Outline → Option Outline
  | [], outline => some outline
  | (key, value) :: rest, outline => do
      let name ← key.getLast?
      let inner := table ++ key.dropLast
      let opened ← outline.openStarts table key
      let listed := { opened with keys := opened.keys ++ [table ++ key] }
      let entered ← enter inner name false value listed
      let node ← Node.ofValue? value
      let next ← entered.set inner name node
      enterMembers table rest (next.mark inner name value.isArray)

end

/-- Adds a statement; the key is that of the table that assignments go to. -/
def add (state : Key × Outline) : Statement → Option (Key × Outline)
  | .table key => do
      let opened ← state.2.openTable key
      let next := opened.mark key "" false
      some (key, { next with keys := next.keys ++ [key] })
  | .item key => do
      let opened ← state.2.openItem key
      let next := opened.mark key "" false
      some (key, { next with keys := next.keys ++ [key] })
  | .assign key value => do
      let next ← enterMembers state.1 [(key, value)] state.2
      some (state.1, next)

def ofText? (text : String) : Option Outline := do
  let found ← statements .lenient text
  let (_, outline) ← found.foldlM add ([], {})
  some outline

end Outline

end SchemaStubs.Settings.Toml
