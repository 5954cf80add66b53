import SchemaStubs.Journal.Entry
import SchemaStubs.Text.Quoted

/-!
Entries as JSON objects, one a line, for programs that read the journal.
-/

namespace SchemaStubs.Journal

namespace Json

def member (key value : String) : String :=
  Text.jsonString key ++ ":" ++ value

def object (members : List String) : String :=
  "\x7b" ++ Text.joinWith "," members ++ "\x7d"

end Json

mutual

def Value.json : Value → String
  | .text content => Text.jsonString content
  | .integer value => toString value
  | .bool value => if value then "true" else "false"
  | .texts items => "[" ++ Text.joinWith "," (items.map Text.jsonString) ++ "]"
  | .group members => Json.object (membersJson members)

def membersJson : List (String × Value) → List String
  | [] => []
  | (key, value) :: rest => Json.member key value.json :: membersJson rest

end

namespace Json

/-- The members for fields; what follows a grouping stands inside it. -/
def fieldMembers : List Field → List String
  | [] => []
  | .pair key value :: rest => member key value.json :: fieldMembers rest
  | .omitted :: rest => fieldMembers rest
  | .grouping key :: rest => [member key (object (fieldMembers rest))]
  | .inlined members :: rest => membersJson members ++ fieldMembers rest

def line (seconds : Int) (entry : Entry) : String :=
  let source := if entry.component == "" then []
    else [member "logger" (Text.jsonString entry.component)]
  object ([member "level" (Text.jsonString entry.level.name), member "ts" (toString seconds)] ++
    source ++ [member "msg" (Text.jsonString entry.message)] ++ fieldMembers entry.fields) ++ "\n"

end Json

end SchemaStubs.Journal
