import SchemaStubs.Document.Dialect
import SchemaStubs.Schema.FormatVersion
import SchemaStubs.Schema.Graph

/-!
Schema documents: the version of the format, the files stubs are asked for, and the nodes. A
document is a record of records; a member it does not know is refused, a member that is left out
keeps its default, and a member that comes again is read into what came before. The reader is the
same for every dialect.
-/

namespace SchemaStubs

structure Document where
  formatVersion : String := ""
  requested : List Id := []
  /-- A document may hold an empty entry; building the graph refuses it. -/
  nodes : List (Option Node) := []
  deriving Repr, Inhabited

namespace Document

variable {V : Type}

/-- A reader changes what is there by a value that is read into it. -/
abbrev Update (V α : Type) := V → α → Option α

/-- What the members of a record are read into, by name and in the order of names. -/
abbrev Members (V α : Type) := List (String × Update V α)

namespace Dialect

/-- Reads a value that stays as it is when it is omitted. -/
def keep {α : Type} (read : V → Reading α) : Update V α :=
  fun value old =>
    match read value with
    | .mistyped => none
    | .omitted => some old
    | .found new => some new

def part {α β : Type} (get : α → β) (set : β → α → α) (update : Update V β) : Update V α :=
  fun value record => (update value (get record)).map fun new => set new record

/-- Reads the entries of a list; a new entry starts from `fresh`. An omitted list is empty. -/
def listOf {α : Type} (dialect : Dialect V) (fresh : α) (update : Update V α) :
    Update V (List α) :=
  fun value old =>
    match dialect.list value with
    | .mistyped => none
    | .omitted => some []
    | .found items =>
        if dialect.positional then
          items.zipIdx.mapM fun (item, position) => update item (old.getD position fresh)
        else (items.filter fun item => !dialect.isOmitted item).mapM fun item => update item fresh

/-- Reads what may be missing; a new one starts from `fresh`. -/
def optional {α : Type} (dialect : Dialect V) (fresh : α) (update : Update V α) :
    Update V (Option α) :=
  fun value old =>
    if dialect.isOmitted value then some none
    else (update value (old.getD fresh)).map some

def recordOf {α : Type} (dialect : Dialect V) (members : Members V α) : Update V α :=
  fun value old =>
    match dialect.record (members.map Prod.fst) value with
    | .mistyped => none
    | .omitted => some old
    | .found found =>
        found.foldlM (fun record (name, value) => do
          let update ← members.lookup name
          update value record) old

def freshType : SchemaType :=
  { kind := .unknown "" }

/-- The members of a type; `nested` reads the types inside it. -/
def typeMembers (dialect : Dialect V) (nested inList : Update V SchemaType) :
    Members V SchemaType :=
  [("brand", part SchemaType.brand (fun brand type => { type with brand })
      (dialect.listOf freshType inList)),
    ("element", part SchemaType.element (fun element type => { type with element })
      (dialect.optional freshType nested)),
    ("kind", part (·.kind.name) (fun name type => { type with kind := .ofName name })
      (keep dialect.text)),
    ("param_index", part SchemaType.paramIndex (fun paramIndex type => { type with paramIndex })
      (keep dialect.number)),
    ("param_scope", part SchemaType.paramScope (fun paramScope type => { type with paramScope })
      (keep dialect.id)),
    ("type_id", part SchemaType.target (fun target type => { type with target })
      (keep dialect.id))]

/-- Reads a type; the first argument bounds how deep types are nested. The list of types bound to
parameters is a level of its own. -/
def readType (dialect : Dialect V) : Nat → Update V SchemaType
  | 0 => fun _ _ => none
  | 1 => dialect.recordOf (dialect.typeMembers (fun _ _ => none) fun _ _ => none)
  | bound + 2 => dialect.recordOf
      (dialect.typeMembers (dialect.readType (bound + 1)) (dialect.readType bound))

def readField (dialect : Dialect V) (bound : Nat) : Update V Field :=
  dialect.recordOf
    [("doc", part Field.doc (fun doc field => { field with doc }) (keep dialect.text)),
      ("group_id", part Field.group (fun group field => { field with group }) (keep dialect.id)),
      ("has_default", part Field.hasDefault (fun hasDefault field => { field with hasDefault })
        (keep dialect.flag)),
      ("kind", part (·.kind.text) (fun text field => { field with kind := .ofText text })
        (keep dialect.text)),
      ("name", part Field.name (fun name field => { field with name }) (keep dialect.text)),
      ("type", part Field.type (fun type field => { field with type })
        (dialect.optional freshType (dialect.readType (bound - 1)))),
      ("union", part Field.ordinal (fun ordinal field => { field with ordinal })
        (keep dialect.number))]

def readFields (dialect : Dialect V) (bound : Nat) : Update V (List Field) :=
  dialect.listOf {} (dialect.readField (bound - 1))

def readMethod (dialect : Dialect V) (bound : Nat) : Update V Method :=
  dialect.recordOf
    [("doc", part Method.doc (fun doc method => { method with doc }) (keep dialect.text)),
      ("name", part Method.name (fun name method => { method with name }) (keep dialect.text)),
      ("params", part Method.params (fun params method => { method with params })
        (dialect.readFields (bound - 1))),
      ("results", part Method.results (fun results method => { method with results })
        (dialect.readFields (bound - 1)))]

def readIds (dialect : Dialect V) : Update V (List Id) :=
  dialect.listOf 0 (keep dialect.id)

def readTexts (dialect : Dialect V) : Update V (List String) :=
  dialect.listOf "" (keep dialect.text)

def readNode (dialect : Dialect V) (bound : Nat) : Update V Node :=
  dialect.recordOf
    [("const_type", part Node.constType (fun constType node => { node with constType })
        (dialect.optional freshType (dialect.readType (bound - 1)))),
      ("discriminant_count", part Node.unionSize (fun unionSize node => { node with unionSize })
        (keep dialect.number)),
      ("display_name", part Node.displayName (fun displayName node => { node with displayName })
        (keep dialect.text)),
      ("doc", part Node.doc (fun doc node => { node with doc }) (keep dialect.text)),
      ("enumerants", part Node.enumerants (fun enumerants node => { node with enumerants })
        dialect.readTexts),
      ("fields", part Node.fields (fun fields node => { node with fields })
        (dialect.readFields (bound - 1))),
      ("id", part Node.id (fun id node => { node with id }) (keep dialect.id)),
      ("is_group", part Node.isGroup (fun isGroup node => { node with isGroup })
        (keep dialect.flag)),
      ("kind", part (·.kind.text) (fun text node => { node with kind := .ofText text })
        (keep dialect.text)),
      ("methods", part Node.methods (fun methods node => { node with methods })
        (dialect.listOf {} (dialect.readMethod (bound - 2)))),
      ("name", part Node.name (fun name node => { node with name }) (keep dialect.text)),
      ("nested", part Node.nested (fun nested node => { node with nested }) dialect.readIds),
      ("parameters", part Node.parameters (fun parameters node => { node with parameters })
        dialect.readTexts),
      ("scope_id", part Node.scope (fun scope node => { node with scope }) (keep dialect.id)),
      ("superclasses", part Node.superclasses (fun superclasses node => { node with superclasses })
        dialect.readIds)]

def readNodes (dialect : Dialect V) (bound : Nat) : Update V (List (Option Node)) :=
  fun value old =>
    match dialect.list value with
    | .mistyped => none
    | .omitted => some []
    | .found items => items.zipIdx.mapM fun (item, position) =>
        dialect.optional {} (dialect.readNode (bound - 1)) item (old.getD position none)

/-- Reads a document whose records and lists are nested no deeper than the bound. -/
def readDocument (dialect : Dialect V) (bound : Nat) (value : V) : Option Document :=
  let members : Members V Document :=
    [("format_version", part Document.formatVersion
        (fun formatVersion document => { document with formatVersion }) (keep dialect.text)),
      ("nodes", part Document.nodes (fun nodes document => { document with nodes })
        (dialect.readNodes (bound - 1))),
      ("requested_files", part Document.requested
        (fun requested document => { document with requested }) dialect.readIds)]
  dialect.recordOf members value {}

end Dialect

def graph (document : Document) : Except Fault Graph := do
  FormatVersion.check document.formatVersion
  Graph.build document.nodes document.requested

end Document

end SchemaStubs
