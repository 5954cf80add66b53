import SchemaStubs.Table
import SchemaStubs.Text.Join

/-!
Entries of the journal: a message of some gravity, the component it comes from, and fields. Entries are
shown from some gravity on, which users choose by a name or by how often they ask for more.
-/

namespace SchemaStubs.Journal

inductive Level where
  | debug
  | info
  | warn
  | error
  | dpanic
  | panic
  | fatal
  deriving DecidableEq, Repr, Inhabited

namespace Level

def all : List Level :=
  [debug, info, warn, error, dpanic, panic, fatal]

def name : Level → String
  | debug => "debug"
  | info => "info"
  | warn => "warn"
  | error => "error"
  | dpanic => "dpanic"
  | panic => "panic"
  | fatal => "fatal"

def label (level : Level) : String :=
  String.ofList (level.name.toList.map Char.toUpper)

def ofName? (name : String) : Option Level :=
  all.find? fun level => level.name == name

def rank : Level → Nat
  | debug => 0
  | info => 1
  | warn => 2
  | error => 3
  | dpanic => 4
  | panic => 5
  | fatal => 6

def reaches (level least : Level) : Bool :=
  least.rank ≤ level.rank

/-- The least level shown when users ask for more that many times. -/
def ofVerbosity (verbosity : Int) : Level :=
  if verbosity ≤ 0 then warn else if verbosity = 1 then info else debug

/-- How often users would have to ask for the level of a name; other names ask for nothing. -/
def verbosity (name : String) : Nat :=
  if name == debug.name then 2 else if name == info.name then 1 else 0

end Level

inductive Value where
  | text (content : String)
  | integer (value : Int)
  | bool (value : Bool)
  | texts (items : List String)
  | group (members : List (String × Value))
  deriving Repr, Inhabited

inductive Field where
  | pair (key : String) (value : Value)
  /-- A field that is never shown. -/
  | omitted
  /-- Everything after it belongs to a group of that name. -/
  | grouping (key : String)
  /-- Members without a key of their own. -/
  | inlined (members : List (String × Value))
  deriving Repr, Inhabited

structure Entry where
  level : Level
  /-- The component that speaks; empty for the program itself. -/
  component : String := ""
  message : String
  fields : List Field := []
  deriving Repr, Inhabited

structure Context where
  members : List (String × Value) := []
  /-- The groups that are open, the outermost first. -/
  groups : List String := []
  deriving Repr, Inhabited

/-- Sets a member inside the groups given by the path. -/
def setWithin (key : String) (value : Value) :
    List String → List (String × Value) → List (String × Value)
  | [], members => Table.setIn key value members
  | group :: path, members =>
      match members.lookup group with
      | some (.group inner) =>
          Table.setIn group (.group (setWithin key value path inner)) members
      | _ => members

namespace Context

def set (context : Context) (key : String) (value : Value) : Context :=
  { context with members := setWithin key value context.groups context.members }

def add (context : Context) : Field → Context
  | .pair key value => context.set key value
  | .omitted => context
  | .grouping key => { context.set key (.group []) with groups := context.groups ++ [key] }
  | .inlined members =>
      members.foldl (fun reached (key, value) => reached.set key value) context

def addAll (context : Context) (fields : List Field) : Context :=
  fields.foldl add context

def closed (context : Context) : Context :=
  { context with groups := [] }

end Context

/-- Fields from keys and values in turn, and the key that is left without a value. -/
def pairUp : List String → List Field × Option String
  | [] => ([], none)
  | [key] => ([], some key)
  | key :: value :: rest =>
      let (fields, left) := pairUp rest
      (.pair key (.text value) :: fields, left)

/-- The entries for a message with keys and values in turn. A key without a value is dropped, and an
entry before the message says so. -/
def entriesOf (level : Level) (component message : String) (pairs : List String) : List Entry :=
  let (fields, left) := pairUp pairs
  let entry : Entry := { level, component, message, fields }
  match left with
  | none => [entry]
  | some key =>
      [{ level := .error, component, message := "Ignored key without a value.",
         fields := [.pair "ignored" (.text key)] }, entry]

end SchemaStubs.Journal
