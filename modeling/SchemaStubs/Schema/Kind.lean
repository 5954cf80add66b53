/-!
The kinds of schema nodes, of struct fields and of types, as a document names them. A document may
hold a name that is none of these; it is kept so that the refusal can show it.
-/

namespace SchemaStubs

inductive NodeKind where
  | file
  | struct
  | enum
  | interface
  | const
  | annotationDecl
  | unknown (name : String)
  deriving DecidableEq, Repr, Inhabited

namespace NodeKind

def text : NodeKind → String
  | file => "file"
  | struct => "struct"
  | enum => "enum"
  | interface => "interface"
  | const => "const"
  | annotationDecl => "annotation"
  | unknown name => name

def ofText (name : String) : NodeKind :=
  ([file, struct, enum, interface, const, annotationDecl].find? fun kind => kind.text == name).getD
    (unknown name)

def isKnown : NodeKind → Bool
  | unknown _ => false
  | _ => true

/-- Structs, enums and interfaces become a class of the stub; files, constants and annotations do
not. -/
def hasModule : NodeKind → Bool
  | struct | enum | interface => true
  | _ => false

end NodeKind

/-- A field without a kind is a slot. -/
inductive FieldKind where
  | slot
  | group
  | unset
  | unknown (name : String)
  deriving DecidableEq, Repr, Inhabited

namespace FieldKind

def text : FieldKind → String
  | slot => "slot"
  | group => "group"
  | unset => ""
  | unknown name => name

def ofText (name : String) : FieldKind :=
  ([slot, group, unset].find? fun kind => kind.text == name).getD (unknown name)

end FieldKind

inductive TypeKind where
  | void
  | bool
  | int8
  | int16
  | int32
  | int64
  | uint8
  | uint16
  | uint32
  | uint64
  | float32
  | float64
  | text
  | data
  | list
  | enum
  | struct
  | interface
  | anyPointer
  | parameter
  | unknown (name : String)
  deriving DecidableEq, Repr, Inhabited

namespace TypeKind

def name : TypeKind → String
  | void => "void"
  | bool => "bool"
  | int8 => "int8"
  | int16 => "int16"
  | int32 => "int32"
  | int64 => "int64"
  | uint8 => "uint8"
  | uint16 => "uint16"
  | uint32 => "uint32"
  | uint64 => "uint64"
  | float32 => "float32"
  | float64 => "float64"
  | text => "text"
  | data => "data"
  | list => "list"
  | enum => "enum"
  | struct => "struct"
  | interface => "interface"
  | anyPointer => "anyPointer"
  | parameter => "parameter"
  | unknown name => name

def primitives : List TypeKind :=
  [void, bool, int8, int16, int32, int64, uint8, uint16, uint32, uint64, float32, float64, text,
    data]

def composites : List TypeKind :=
  [list, enum, struct, interface, anyPointer, parameter]

def ofName (name : String) : TypeKind :=
  ((primitives ++ composites).find? fun kind => kind.name == name).getD (unknown name)

def isPrimitive (kind : TypeKind) : Bool :=
  primitives.contains kind

def isKnown : TypeKind → Bool
  | unknown _ => false
  | _ => true

def target? : TypeKind → Option NodeKind
  | enum => some .enum
  | struct => some .struct
  | interface => some .interface
  | _ => none

end TypeKind

end SchemaStubs
