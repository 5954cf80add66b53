import SchemaStubs.Document.Basic
import SchemaStubs.Files.Disk
import SchemaStubs.Files.Path

/-!
Schema documents and the formats they are written in. The format is given, or follows from the
extension of the file that a document is read from.
-/

namespace SchemaStubs.Document

inductive Format where
  | json
  | yaml
  deriving DecidableEq, Repr

namespace Format

def text : Format → String
  | json => "json"
  | yaml => "yaml"

def title : Format → String
  | json => "JSON"
  | yaml => "YAML"

def ofText? (name : String) : Option Format :=
  [json, yaml].find? fun format => format.text == name

def ofExtension? : String → Option Format
  | ".json" => some json
  | ".yaml" => some yaml
  | ".yml" => some yaml
  | _ => none

/-- The format of a file: an explicit one wins, `auto` or nothing goes by the extension. -/
def detect (path wanted : String) : Except Fault Format :=
  let name := Text.lower wanted
  match ofText? name with
  | some format => .ok format
  | none =>
      if name == "" || name == "auto" then
        match ofExtension? (Text.lower (Files.Path.extension path)) with
        | some format => .ok format
        | none => .error (Defect.unknownExtension path)
      else .error (Defect.unknownFormat wanted)

def read (format : Format) (text : String) : Except Fault Document :=
  let document := match format with
    | json => (Json.ofText? text).bind (Json.dialect.readDocument Json.deepest)
    | yaml => (Yaml.ofText? text).bind (Yaml.dialect.readDocument (text.toList.length + 2))
  match document with
  | some document => .ok document
  | none => .error (Cause.malformedDocument format.title)

end Format

def decode (text formatName : String) : Except Fault Graph :=
  match Format.ofText? formatName with
  | none => .error (Defect.unknownFormat formatName)
  | some format => do
      let document ← format.read text
      document.graph

def load (disk : Files.Disk) (path formatName : String) : Except Fault Graph := do
  let format ← Format.detect path formatName
  match disk.read path with
  | .error reason =>
      let refused : Fault := Cause.refusal (.ofRead path reason)
      .error (refused.withContext ("failed to read schema document " ++ path))
  | .ok text =>
      (decode text format.text).mapError (Fault.withContext ("failed to load " ++ path))

end SchemaStubs.Document
