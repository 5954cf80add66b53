import SchemaStubs.Fault
import SchemaStubs.Stub.Location

/-!
What users can set, the values that hold when they set nothing, and the rules that settings keep.
-/

namespace SchemaStubs

structure Settings where
  /-- Where stubs are written; empty for the directory of the schema document. -/
  outputDirectory : String
  /-- Ends the names of stubs; empty for the default. -/
  suffix : String
  /-- Whether the marker of a typed directory is written. -/
  typedMarker : Bool
  /-- Whether stubs start with a header. -/
  header : Bool
  /-- The format of the schema document, or `auto` to go by its extension. -/
  format : String
  /-- Whether the journal is written as JSON. -/
  jsonLog : Bool
  level : String
  /-- How many milliseconds a watched document has to be quiet; zero for the default. -/
  debounce : Int
  deriving DecidableEq, Repr, Inhabited

namespace Settings

def defaultDebounce : Int :=
  300

def default : Settings where
  outputDirectory := ""
  suffix := Stub.defaultSuffix
  typedMarker := true
  header := true
  format := "auto"
  jsonLog := false
  level := "warn"
  debounce := defaultDebounce

def effectiveSuffix (settings : Settings) : String :=
  if settings.suffix == "" then Stub.defaultSuffix else settings.suffix

def effectiveDebounce (settings : Settings) : Int :=
  if settings.debounce = 0 then defaultDebounce else settings.debounce

def text (settings : Settings) : String :=
  "Config\x7bOutput: \x7bDir: " ++ Text.quote settings.outputDirectory ++ ", Suffix: " ++
    settings.effectiveSuffix ++ "\x7d, Input: \x7bFormat: " ++ settings.format ++
    "\x7d, Log: \x7bLevel: " ++ settings.level ++ "\x7d\x7d"

def formats : List String :=
  ["", "auto", "json", "yaml"]

def levels : List String :=
  ["", "warn", "info", "debug"]

def hasSeparator (suffix : String) : Bool :=
  suffix.toList.any fun c => c == '/' || c == '\\'

def problem? (settings : Settings) : Option Problem :=
  if settings.format ∉ formats then some (.unknownFormat settings.format)
  else if settings.level ∉ levels then some (.unknownLevel settings.level)
  else if settings.suffix != "" && !Text.endsWith ".pyi" settings.suffix then
    some (.suffixEnding settings.suffix)
  else if hasSeparator settings.suffix then some (.suffixSeparator settings.suffix)
  else if settings.debounce < 0 then some (.negativeDebounce settings.debounce)
  else none

def check (settings : Settings) : Except Fault Unit :=
  match settings.problem? with
  | none => .ok ()
  | some problem => .error (Cause.setting problem)

def stubOptions (settings : Settings) : Stub.Options :=
  { suffix := settings.effectiveSuffix, header := settings.header }

end Settings

end SchemaStubs
