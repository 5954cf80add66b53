import SchemaStubs.Delivery.Write
import SchemaStubs.Settings.Load
import SchemaStubs.Step

/-!
Writing a settings file that holds the defaults. A file that stands there already is kept, or copied
aside when it is to be replaced.
-/

namespace SchemaStubs.Settings

/-- A text between apostrophes, for texts without apostrophes and control characters. -/
def literalText (text : String) : String :=
  String.ofList (Text.apostrophe :: text.toList ++ [Text.apostrophe])

def truth (value : Bool) : String :=
  if value then "true" else "false"

def valueText (settings : Settings) : Key → String
  | .outputDirectory => literalText settings.outputDirectory
  | .suffix => literalText settings.suffix
  | .typedMarker => truth settings.typedMarker
  | .header => truth settings.header
  | .format => literalText settings.format
  | .jsonLog => truth settings.jsonLog
  | .level => literalText settings.level
  | .debounce => toString settings.debounce

def tableText (settings : Settings) (table : String) : String :=
  "[" ++ table ++ "]\n" ++
    Text.concat ((Key.all.filter fun key => key.table == table).map fun key =>
      key.name ++ " = " ++ settings.valueText key ++ "\n")

def fileText (settings : Settings) : String :=
  Text.joinWith "\n" (Key.tables.map settings.tableText)

def backUp (disk : Files.Disk) (path : String) : Except Fault Files.Disk := do
  let copy := path ++ ".back1"
  let content ← (disk.read path).mapError fun reason =>
    ⟨.refusal (.ofRead path reason), ["failed to read config for backup"], []⟩
  (disk.write copy content).mapError fun reason =>
    ⟨.refusal ⟨"open", copy, reason⟩, ["failed to create .back1"], []⟩

def clear (disk : Files.Disk) (path : String) (replace : Bool) : Except Fault Files.Disk :=
  if !disk.holds path then .ok disk
  else if !replace then .error (Cause.setting (.alreadyExists path))
  else (backUp disk path).mapError (Fault.withContext "failed to create backup")

def pathIn (directory : String) : String :=
  Files.Path.join [directory, fileName]

/-- Writes the default settings into a directory, which is made if need be. -/
def writeDefault (directory : String) (replace : Bool) : Step Files.Disk String := do
  let path := pathIn directory
  let cleared ← Step.ofExcept (clear (← get) path replace)
  set cleared
  Delivery.makeDirectories directory ("failed to create " ++ directory)
  Delivery.putFile path default.fileText ("failed to write " ++ path)
  pure path

end SchemaStubs.Settings
