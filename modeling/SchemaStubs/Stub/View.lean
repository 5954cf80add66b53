import SchemaStubs.Schema.Kind

/-!
The faces of a type: what is read from a message, what is found in one under construction, what may
be assigned, and what a plain dictionary holds.
-/

namespace SchemaStubs.Stub

inductive View where
  | reader
  | builder
  | setter
  | dict
  deriving DecidableEq, Repr

def anyPointerClass : String :=
  "_AnyPointer"

namespace View

def anyPointer : View → String
  | reader | builder => anyPointerClass
  | setter | dict => "Any"

/-- A class of the same stub, known by its identifier. -/
def localType (internal : String) (kind : TypeKind) (view : View) : String :=
  match kind, view with
  | .enum, setter => internal ++ ".Value | int"
  | .enum, _ => internal ++ ".Value"
  | .interface, setter => internal ++ ".Client | " ++ internal ++ ".Server"
  | .interface, dict => "Any"
  | .interface, _ => internal ++ ".Client"
  | _, reader => internal ++ ".Reader"
  | _, builder => internal ++ ".Builder"
  | _, setter => internal ++ ".Reader | " ++ internal ++ ".Builder | " ++ internal ++ ".Dict"
  | _, dict => internal ++ ".Dict"

/-- The body of a named group. A group can only be assigned as a whole from a dictionary. -/
def groupType (internal : String) : View → String
  | reader => internal ++ ".Reader"
  | builder => internal ++ ".Builder"
  | setter | dict => internal ++ ".Dict"

end View

end SchemaStubs.Stub
