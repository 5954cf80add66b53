import SchemaStubs.Command.Reading
import SchemaStubs.Command.Verb

/-!
Help: the page about the program and the pages about its commands. A page has the description, the
ways to call the command, the commands below it and the flags, each table aligned by itself.
-/

namespace SchemaStubs.Command

structure Topic where
  /-- The words that call it. -/
  path : String
  /-- The name it goes by in its own page. -/
  name : String
  /-- The arguments it takes, as they are written in the line of use. -/
  arguments : String := ""
  description : String
  runnable : Bool := true
  /-- The commands below it with a line about each. -/
  commands : List (String × String) := []
  /-- The flags of this topic alone with a line about each. -/
  flags : List (Flag × String)
  /-- The flags it shares with the topics above it. -/
  inherited : List (Flag × String) := []
  deriving Repr, Inhabited

namespace Verb

def summary : Verb → String
  | generate => "Generate stubs from a schema document"
  | check => "Check that stubs on disk are up to date"
  | watch => "Regenerate stubs whenever the schema document changes"
  | init => "Write a default stubgen.toml"
  | version => "Show stubgen version information"
  | help => "Help about any command"
  | completion => "Generate the autocompletion script for the specified shell"

def arguments : Verb → String
  | generate | check | watch => "<schema-document>"
  | init => "[dir]"
  | help => "[command]"
  | version | completion => ""

def description : Verb → List String
  | generate =>
      ["Generate one .pyi stub per requested file of the schema document.",
        "",
        "Files are only written once every stub generated successfully, and files",
        "whose content did not change are left untouched."]
  | check =>
      ["Generate stubs in memory and compare them with the files on disk.",
        "",
        "Line endings are normalized before comparing. Differences are shown as",
        "unified diffs from the file on disk to the generated content.",
        "",
        "Exit codes:",
        "  0 - Stubs are up to date",
        "  1 - Stubs are out of date (diff shown)",
        "  2 - Error during check"]
  | watch =>
      ["Generate stubs once, then watch the schema document and regenerate on",
        "every change. Changes within watch.debounce_ms of each other are coalesced.",
        "A failed run is logged and watching continues. Stop with Ctrl-C."]
  | init =>
      ["Write stubgen.toml holding the default configuration into dir (default:",
        "the current directory). An existing file is kept unless --force is given, in",
        "which case it is first backed up to stubgen.toml.back1."]
  | version =>
      ["Display version, build time, commit hash, supported schema formats and platform " ++
        "information."]
  | help =>
      ["Help provides help for any command in the application.",
        "Simply type stubgen help [path to command] for full details."]
  | completion =>
      ["Generate the autocompletion script for stubgen for the specified shell.",
        "See each sub-command's help for details on how to use the generated script."]

end Verb

def flagUsage (topic : String) : Flag → String
  | .force => "Replace an existing stubgen.toml"
  | .help => "help for " ++ topic
  | .json => "Output version info as JSON"
  | .logJson => "Emit logs as JSON"
  | .output =>
      if topic == Verb.check.name then
        "Directory holding the stubs (default: next to the schema document)"
      else "Output directory (default: next to the schema document)"
  | .stdout => "Print stubs to stdout instead of writing files"
  | .verbose => "Increase output verbosity (repeat for more detail: -v, -vv)"

def withUsage (topic : String) (flags : List Flag) : List (Flag × String) :=
  flags.map fun flag => (flag, flagUsage topic flag)

namespace Topic

def shells : List String :=
  ["bash", "fish", "powershell", "zsh"]

def programDescription : List String :=
  ["stubgen turns a compiled Cap'n Proto schema graph into .pyi stubs for pycapnp.",
    "",
    "The schema graph is read from a JSON or YAML document holding every node",
    "reachable from the requested files. One stub is produced per requested file.",
    "",
    "Available commands:",
    "  generate - Generate stubs from a schema document",
    "  check    - Verify that stubs on disk match the schema document",
    "  watch    - Regenerate stubs whenever the schema document changes",
    "  init     - Write a default stubgen.toml",
    "  version  - Show version information",
    "",
    "Examples:",
    "  stubgen generate schema.yaml              # Write stubs next to the document",
    "  stubgen generate schema.json -o stubs/    # Write stubs under stubs/",
    "  stubgen generate schema.yaml --stdout     # Print stubs instead of writing",
    "  stubgen check schema.yaml                 # Exit 1 when stubs drifted"]

def ofProgram (flags : List Flag) : Topic where
  path := program
  name := program
  description := Text.joinWith "\n" programDescription
  runnable := false
  commands := sortBy (fun first second => Text.precedes first.1 second.1)
    (Verb.all.map fun verb => (verb.name, verb.summary))
  flags := withUsage program flags

def ofVerb (verb : Verb) : Topic where
  path := program ++ " " ++ verb.name
  name := verb.name
  arguments := verb.arguments
  description := Text.joinWith "\n" verb.description
  runnable := verb ≠ .completion
  commands := if verb = .completion then
      shells.map fun shell => (shell, "Generate the autocompletion script for " ++ shell)
    else []
  flags := withUsage verb.name verb.ownFlags
  inherited := withUsage verb.name sharedFlags

/-- The flags that the program takes without a command. -/
def programFlags : List Flag :=
  .help :: sharedFlags

def ofVerb? : Option Verb → Topic
  | none => ofProgram programFlags
  | some verb => ofVerb verb

def padded (width : Nat) (text : String) : String :=
  text ++ String.ofList (List.replicate (width - text.toList.length) ' ')

def commandRow (entry : String × String) : String :=
  "\n  " ++ padded 11 entry.1 ++ " " ++ entry.2

def flagTitle (flag : Flag) : String :=
  let shown := if flag.letter.isSome then "  " ++ flag.shown else "      " ++ flag.shown
  match flag.kind with
  | .bool => shown
  | .string => shown ++ " string"
  | .count => shown ++ " count"

def widest (texts : List String) : Nat :=
  texts.foldl (fun width text => max width text.toList.length) 0

def flagTable (flags : List (Flag × String)) : String :=
  let width := widest (flags.map fun entry => flagTitle entry.1)
  Text.joinWith "\n" (flags.map fun entry =>
    padded width (flagTitle entry.1) ++ "   " ++ entry.2)

def flagSection (title : String) (flags : List (Flag × String)) : String :=
  if flags.isEmpty then "" else "\n\n" ++ title ++ ":\n" ++ flagTable flags

def useLine (topic : Topic) : String :=
  Text.joinWith " " ([topic.path] ++ (if topic.arguments == "" then [] else [topic.arguments]) ++
    ["[flags]"])

def usage (topic : Topic) : String :=
  let below := !topic.commands.isEmpty
  "Usage:" ++
    (if topic.runnable then "\n  " ++ topic.useLine else "") ++
    (if below then "\n  " ++ topic.path ++ " [command]" else "") ++
    (if below then "\n\nAvailable Commands:" ++ Text.concat (topic.commands.map commandRow)
      else "") ++
    flagSection "Flags" topic.flags ++ flagSection "Global Flags" topic.inherited ++
    (if below then
      "\n\nUse \"" ++ topic.path ++ " [command] --help\" for more information about a command."
      else "") ++ "\n"

def page (topic : Topic) : String :=
  topic.description ++ "\n\n" ++ topic.usage

end Topic

def helpAbout (topics : List String) : String :=
  match find topics with
  | .ok (verb, _) => (Topic.ofVerb? verb).page
  | .error _ =>
      let mark := String.ofList [Char.ofNat 96]
      "Unknown help topic [" ++
        Text.joinWith " " (topics.map fun topic => mark ++ topic ++ mark) ++ "]\n" ++
        (Topic.ofProgram sharedFlags).usage

end SchemaStubs.Command
