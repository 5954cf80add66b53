import SchemaStubs.Text.Quoted

/-!
What can be wrong with the settings, or with writing a settings file.
-/

namespace SchemaStubs.Settings

inductive Problem where
  | unknownFormat (format : String)
  | unknownLevel (level : String)
  | suffixEnding (suffix : String)
  | suffixSeparator (suffix : String)
  | negativeDebounce (milliseconds : Int)
  | malformedFile
  | wrongType (key : String)
  | alreadyExists (path : String)
  deriving DecidableEq, Repr

namespace Problem

def text : Problem → String
  | unknownFormat format => "input.format must be auto, json or yaml, got " ++ Text.quote format
  | unknownLevel level => "log.level must be warn, info or debug, got " ++ Text.quote level
  | suffixEnding suffix => "output.suffix must end in .pyi, got " ++ Text.quote suffix
  | suffixSeparator suffix =>
      "output.suffix cannot contain a path separator, got " ++ Text.quote suffix
  | negativeDebounce milliseconds => s!"watch.debounce_ms must be >= 0, got {milliseconds}"
  | malformedFile => "malformed TOML"
  | wrongType key => s!"{key} has the wrong type"
  | alreadyExists path => s!"{path} already exists"

def hints : Problem → List String
  | unknownFormat _ => ["omit input.format to detect the format from the file extension"]
  | alreadyExists _ => ["pass --force to replace it"]
  | _ => []

end Problem

end SchemaStubs.Settings
