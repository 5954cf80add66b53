import SchemaStubs.Settings.Load
import SchemaStubs.Settings.Toml.Outline

/-!
Keys of a settings file that no setting goes by: most likely they are misspelled.
-/

namespace SchemaStubs.Settings

/-- Whether a name is a known one but for the case of its letters. -/
def goesBy (known name : String) : Bool :=
  Text.folded name == known

def checkMember (table : String) (member : String × Toml.Node) : Except Fault Unit :=
  match Key.all.find? fun key => key.table == table && goesBy key.name member.1 with
  | none => .ok ()
  | some key =>
      let isFit :=
        match member.2 with
        | .value value => (Given.ofValue value).isOf key.kind
        | _ => false
      if isFit then .ok () else .error (Cause.setting (.wrongType key.text))

/-- The tables of settings are tables, and their members are of their kinds. -/
def checkTable (member : String × Toml.Node) : Except Fault Unit :=
  match Key.tables.find? fun table => goesBy table member.1 with
  | none => .ok ()
  | some table =>
      match member.2 with
      | .table members => members.forM (checkMember table)
      | _ => .error (Cause.setting (.wrongType table))

def isKnown (file : Toml.Members) (key : Toml.Key) : Bool :=
  let folded := key.map Text.folded
  let isSetting := Key.tables.any (fun table => folded == [table]) ||
    Key.all.any fun known => folded == known.path
  let stands := (Toml.follow key.dropLast file).any fun members =>
    members.any fun member => key.getLast? == some member.1
  isSetting && stands

def isBareName (name : String) : Bool :=
  name != "" && name.toList.all Toml.isBareChar

def nameChar (c : Char) : String :=
  if c == '"' then "\\\""
  else if c == '\\' then "\\\\"
  else if c.toNat = 8 then "\\b"
  else if c == '\t' then "\\t"
  else if c == '\n' then "\\n"
  else if c.toNat = 12 then "\\f"
  else if c == '\r' then "\\r"
  else if c.toNat < 32 || c.toNat = 127 then "\\u" ++ String.ofList (Text.hexPadded 4 c.toNat)
  else String.singleton c

def nameText (name : String) : String :=
  if isBareName name then name
  else "\"" ++ Text.concat (name.toList.map nameChar) ++ "\""

def keyText (key : Toml.Key) : String :=
  Text.joinWith "." (key.map nameText)

def unknownKeys (disk : Files.Disk) (path : String) : Except Fault (List String) := do
  let outline ← readFile Toml.Outline.ofText? disk "failed to parse" path
  (outline.members.forM checkTable).mapError (Fault.withContext ("failed to parse " ++ path))
  .ok (Text.sorted ((outline.keys.filter fun key => !isKnown outline.members key).map keyText))

end SchemaStubs.Settings
