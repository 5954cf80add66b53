import SchemaStubs.Files.Disk
import SchemaStubs.Settings.Key
import SchemaStubs.Settings.Toml.Document

/-!
Where settings come from. A flag of the command line wins over an environment variable, that over
the settings file, and that over the defaults. The settings file is the first one found from the
working directory upwards. Names in it are compared without regard to case.
-/

namespace SchemaStubs.Settings

def fileName : String :=
  "stubgen.toml"

structure Sources where
  flags : List (Key × Given) := []
  environment : List (String × String) := []
  file : Toml.Members := []
  deriving Inhabited

/-- The value of an environment variable; an empty one counts as not set. -/
def setVariable? (environment : List (String × String)) (name : String) : Option String :=
  match environment.lookup name with
  | some value => if value == "" then none else some value
  | none => none

/-- What a name in lower case stands for. Of several names that differ in case only, one that is not
in lower case goes before the one that is. -/
def member? (members : Toml.Members) (name : String) : Option Toml.Node :=
  let others := members.filter fun member => member.1 != name && Text.lower member.1 == name
  match others.getLast? with
  | some member => some member.2
  | none => members.lookup name

def Key.text (key : Key) : String :=
  Text.joinWith "." key.path

/-- What a settings file has at a key. A single name that spells the whole key goes before a name in
a table. -/
def fileNode (file : Toml.Members) (key : Key) : Option Toml.Node :=
  match member? file key.text with
  | some node => some node
  | none =>
      match member? file key.table with
      | some (.table members) => member? members key.name
      | _ => none

def fileValue (file : Toml.Members) (key : Key) : Option Given :=
  (fileNode file key).map fun node =>
    match node with
    | .value value => .ofValue value
    | _ => .unfit

/-- Whether a settings file has a date or a time where a table belongs. It counts as a table with
every value left out. -/
def isBlankTable (file : Toml.Members) (table : String) : Bool :=
  match member? file table with
  | some (.value .moment) => true
  | _ => false

def defaultValue : Key → Given
  | .outputDirectory => .text default.outputDirectory
  | .suffix => .text default.suffix
  | .typedMarker => .bool default.typedMarker
  | .header => .bool default.header
  | .format => .text default.format
  | .jsonLog => .bool default.jsonLog
  | .level => .text default.level
  | .debounce => .integer default.debounce

def Sources.tableVariable? (sources : Sources) (table : String) : Option String :=
  setVariable? sources.environment (Key.variableName [table])

/-- The value of a key. A variable for a whole table hides what the file and the defaults have for
the keys of the table. -/
def Sources.given (sources : Sources) (key : Key) : Given :=
  match sources.flags.lookup key with
  | some value => value
  | none =>
      if isBlankTable sources.file key.table then .absent
      else match setVariable? sources.environment (Key.variableName key.path) with
        | some value => .text value
        | none =>
            if (sources.tableVariable? key.table).isSome then .absent
            else (fileValue sources.file key).getD (defaultValue key)

def wrongType (name : String) : Fault :=
  let fault : Fault := Cause.setting (.wrongType name)
  fault.withContext "failed to unmarshal config"

/-- Whether there is something else where a table of settings belongs: in the file, or in the
variable for a table that the file has nothing but a date or a time for. -/
def Sources.isMisplaced (sources : Sources) (table : String) : Bool :=
  match member? sources.file table with
  | none | some (.table _) => false
  | some (.value .moment) => (sources.tableVariable? table).isSome
  | some _ => true

def required {α : Type} (key : Key) (value : Option α) : Except Fault α :=
  match value with
  | some value => .ok value
  | none => .error (wrongType key.text)

def gather (sources : Sources) : Except Fault Settings := do
  match Key.tables.find? sources.isMisplaced with
  | some name => .error (wrongType name)
  | none => do
      let texts := fun key => required key (sources.given key).asText?
      let bools := fun key => required key (sources.given key).asBool?
      let outputDirectory ← texts .outputDirectory
      let suffix ← texts .suffix
      let typedMarker ← bools .typedMarker
      let header ← bools .header
      let format ← texts .format
      let jsonLog ← bools .jsonLog
      let level ← texts .level
      let debounce ← required .debounce (sources.given .debounce).asInteger?
      .ok { outputDirectory, suffix, typedMarker, header, format, jsonLog, level, debounce }

def load (sources : Sources) : Except Fault Settings := do
  let settings ← gather sources
  settings.check
  .ok settings

/-- What a reader makes of a settings file; `action` says what failed if it makes nothing of it. -/
def readFile {α : Type} (reader : String → Option α) (disk : Files.Disk)
    (action path : String) : Except Fault α :=
  match disk.read path with
  | .error reason =>
      let refused : Fault := Cause.refusal (.ofRead path reason)
      .error (refused.withContext (action ++ " " ++ path))
  | .ok text =>
      match reader text with
      | some found => .ok found
      | none =>
          let malformed : Fault := Cause.setting .malformedFile
          .error (malformed.withContext (action ++ " " ++ path))

/-- The settings of one file, whatever the environment says. -/
def loadFile (disk : Files.Disk) (path : String) : Except Fault Settings := do
  let file ← readFile Toml.members? disk "failed to read config file" path
  (load { file }).mapError (Fault.withContext ("invalid config in " ++ path))

def pathOf (place : Files.Place) : String :=
  "/" ++ Text.joinWith "/" place

def upwards (place : Files.Place) : List Files.Place :=
  (List.range (place.length + 1)).map fun steps => place.take (place.length - steps)

def findFile (disk : Files.Disk) : Option String :=
  ((upwards disk.workingDirectory).map fun place => pathOf (place ++ [fileName])).find? disk.holds

/-- The values of the settings file in force; a file that cannot be read has none. -/
def projectFile (disk : Files.Disk) : Toml.Members :=
  match findFile disk with
  | none => []
  | some path =>
      match readFile Toml.members? disk "" path with
      | .ok file => Toml.pruned file
      | .error _ => []

def loadProject (disk : Files.Disk) (environment : List (String × String))
    (flags : List (Key × Given)) : Except Fault Settings :=
  load { flags, environment, file := projectFile disk }

end SchemaStubs.Settings
