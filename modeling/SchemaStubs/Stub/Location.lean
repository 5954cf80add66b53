import SchemaStubs.Files.Path
import SchemaStubs.Text.Casing

/-!
Where the stub of a schema file stands and how other stubs import from it. A stub keeps the
directories of its file, each made an identifier, and is named by the stem of the file and the
suffix of the run, which is one of the options that a caller has.
-/

namespace SchemaStubs.Stub

def defaultSuffix : String :=
  "_capnp.pyi"

namespace Location

/-- The path of a schema file with slashes, without steps back and not rooted. -/
def sourcePath (file : String) : String :=
  let slashed := String.ofList (file.toList.map fun c => if c = '\\' then '/' else c)
  String.ofList ((Files.Path.clean slashed).toList.dropWhile fun c => c == '/')

/-- The last element without its extension; a name that is all extension is kept. -/
def stem (file : String) : String :=
  let base := Files.Path.base (sourcePath file)
  let extension := Files.Path.extension base
  if extension != "" && extension != base then Text.dropEnd extension base else base

def directories (file : String) : List String :=
  ((Text.splitAt '/' (Files.Path.directory (sourcePath file))).filter fun part =>
    part != "" && part != "." && part != "..").map Text.identifier

def moduleName (suffix file : String) : String :=
  Text.identifier (stem file) ++ Text.dropEnd ".pyi" suffix

def outputPath (suffix file : String) : String :=
  Files.Path.join (directories file ++ [Text.identifier (stem file) ++ suffix])

def splitCommon : List String → List String → List String × List String
  | first :: firsts, second :: seconds =>
      if first = second then splitCommon firsts seconds
      else (first :: firsts, second :: seconds)
  | firsts, seconds => (firsts, seconds)

/-- The module of one file as the stub of another imports it: one point for the directory of the
importing stub and one more for each directory up. -/
def relativeModule (suffix source target : String) : String :=
  let (up, down) := splitCommon (directories source) (directories target)
  String.ofList (List.replicate (1 + up.length) '.') ++
    Text.joinWith "." (down ++ [moduleName suffix target])

/-- The stem as the start of a name. -/
def fileQualifier (file : String) : String :=
  Text.pascal (Text.identifier (stem file))

/-- The directories and the stem as the start of a name. -/
def pathQualifier (file : String) : String :=
  Text.concat ((directories file).map Text.pascal) ++ fileQualifier file

end Location

structure Options where
  suffix : String := defaultSuffix
  /-- Whether a stub starts with a docstring and a mark that it was generated. -/
  header : Bool := true
  deriving DecidableEq, Repr, Inhabited

/-- Options with another suffix; an empty one leaves the default. -/
def Options.withSuffix (suffix : String) (options : Options) : Options :=
  if suffix == "" then options else { options with suffix }

end SchemaStubs.Stub
